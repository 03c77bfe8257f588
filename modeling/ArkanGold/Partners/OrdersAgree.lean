import ArkanGold.Partners.OrderDiscipline

/-!
# Partner orders agree with the ledger of the partners

The calls of `PartnerOrdersService` keep to the discipline of the orders, so whatever their
interleaving the partners owe together what account 1050 says, and what has been done with
an order agrees with its status.

- `Alone`: the delivery of gold, and the numbers of documents, do not concern the orders.
- `Journals`: the posting of a journal for an order; `Charged`: the line of the partner.
- `partner_orders_agree`: the property of all runs, as long as the orders that a settlement
  marks are still CONFIRMED. Nothing in `settle` ensures that: `settled_after_refund`.
-/

namespace ArkanGold

open AccountingService

namespace PartnerOrdersService

open PartnerAccounts

variable {s s' t t' : OfficeDb} {held : List OfficeRow} {o : PartnerOrder} {partner : SalesPartner}
  {adminId : Option ℕ} {m : Moments} {g : OfficeDb → OfficeDb}

/-! ## Steps that do not concern the orders -/

/-- Nothing about the orders differs, nor the books. -/
structure Alone (s t : OfficeDb) : Prop where
  orders : t.partnerOrders = s.partnerOrders
  partners : t.partners = s.partners
  settlements : t.settlements = s.settlements
  books : t.books = s.books
  marks : t.orderMarks = s.orderMarks

theorem Alone.refl (s : OfficeDb) : Alone s s := ⟨rfl, rfl, rfl, rfl, rfl⟩

theorem Alone.trans {u : OfficeDb} (h : Alone s t) (h' : Alone t u) : Alone s u :=
  ⟨h'.orders.trans h.orders, h'.partners.trans h.partners, h'.settlements.trans h.settlements,
    h'.books.trans h.books, h'.marks.trans h.marks⟩

theorem Alone.step (h : Alone s t) : OrderStep s t ∧ ∀ r, orderFrame r s t := by
  refine ⟨⟨h.books ▸ .refl _, .none h.orders h.settlements h.marks ?_⟩, fun r => ?_⟩
  · refine ⟨?_, ?_⟩
    · rw [OfficeDb.partnersTotal, h.partners, add_zero]
      rfl
    · rw [OfficeDb.receivable, h.books, add_zero]
      rfl
  · unfold orderFrame
    split
    · exact fun _ ho => h.orders ▸ ho
    · exact fun p hp => ⟨p, h.partners ▸ hp, rfl⟩
    · exact ⟨fun hn => h.orders ▸ hn, fun hn => h.settlements ▸ hn⟩
    · trivial

theorem quiet_bump (s : OfficeDb) :
    orderDiscipline.trans s (Supply.bump s) ∧ ∀ r, orderDiscipline.frame r s (Supply.bump s) :=
  Alone.step ⟨rfl, rfl, rfl, rfl, rfl⟩

theorem orderMarks_note (l : OfficeMark) (s : OfficeDb) :
    (s.note l).orderMarks = s.orderMarks ++ if OfficeDb.isOrderMark l then [l] else [] := by
  rw [OfficeDb.orderMarks, OfficeDb.note_history, List.filter_append]
  cases h : OfficeDb.isOrderMark l <;> simp [OfficeDb.orderMarks, h]

theorem within_deliverMelted : (deliverMelted o partner).Within Alone := by
  refine OfficeStmt.within_onStore (Q := fun s t => t.books = s.books)
    (fun _ _ h => ⟨rfl, rfl, rfl, h, rfl⟩) ?_
  refine Block.within_bind (Stmt.within_lockWalletOf _) fun _ => ?_
  refine Block.within_bind Block.within_get fun _ => ?_
  refine Block.within_bind Block.within_getOrFail fun _ => ?_
  refine Block.within_bind (Stmt.within_updateWallet fun _ _ => rfl) fun _ => ?_
  exact Stmt.within_create (fun _ _ => rfl) _

theorem within_deliverBar : (deliverBar o adminId m).Within Alone := by
  refine Block.within_bind Block.within_getOrFail fun barId => ?_
  refine Block.within_bind Block.within_lock fun _ => Block.within_bind Block.within_get fun _ => ?_
  refine Block.within_bind Block.within_getOrFail fun bar => ?_
  refine Block.within_bind (Block.within_mark.mpr fun s => ⟨rfl, rfl, rfl, rfl, ?_⟩) fun _ => ?_
  · rw [OfficeDb.history_record, orderMarks_note]
    exact List.append_nil _
  refine Block.within_bind Block.within_get fun _ => ?_
  refine Block.within_bind (OfficeStmt.within_createUnique fun _ _ => ⟨rfl, rfl, rfl, rfl, rfl⟩)
    fun _ => ?_
  exact OfficeStmt.within_update fun _ _ => ⟨rfl, rfl, rfl, rfl, rfl⟩

theorem within_takeBack : (takeBack o partner).Within Alone := by
  unfold takeBack
  split
  · refine OfficeStmt.within_onStore (Q := fun s t => t.books = s.books)
      (fun _ _ h => ⟨rfl, rfl, rfl, h, rfl⟩) ?_
    refine Block.within_bind (Stmt.within_lockWalletOf _) fun _ => ?_
    refine Block.within_bind Block.within_get fun _ => ?_
    refine Block.within_bind Block.within_getOrFail fun _ => ?_
    refine Block.within_bind Block.within_check fun _ => ?_
    refine Block.within_bind (Stmt.within_updateWallet fun _ _ => rfl) fun _ => ?_
    exact Block.within_bind (Stmt.within_create (fun _ _ => rfl) _) fun _ => Block.within_pure
  · refine Block.within_bind Block.within_getOrFail fun barId => ?_
    refine Block.within_bind Block.within_lock fun _ => ?_
    refine Block.within_bind Block.within_get fun _ => ?_
    refine Block.within_bind Block.within_getOrFail fun _ => ?_
    refine Block.within_bind (OfficeStmt.within_update fun _ _ => ⟨rfl, rfl, rfl, rfl, rfl⟩)
      fun _ => ?_
    exact OfficeStmt.within_update fun _ _ => ⟨rfl, rfl, rfl, rfl, rfl⟩

theorem within_nextNumber (cal : Calendar) (label : String) :
    (OfficeStmt.nextNumber cal label).Within Alone :=
  OfficeStmt.within_nextNumber (fun _ _ => ⟨rfl, rfl, rfl, rfl, rfl⟩) cal label

/-- What others do does not hurt a step that does not concern the orders. -/
theorem wp_alone {α : Type} {x : OfficeStmt α} (hx : x.Within Alone) (hg : ∀ t, Alone t (g t))
    {post : α → List OfficeRow → (OfficeDb → OfficeDb) → OfficeDb → Prop}
    (h : ∀ a held' g' s', (∀ r ∈ held, r ∈ held') → orderDiscipline.rely held s s' →
      (∀ t, Alone t (g' t)) → post a held' g' s') : x.wp orderDiscipline held g post s :=
  hx.wp Alone.refl (fun _ _ _ => Alone.trans) quiet_bump fun a held' _ s' hsub hg' hs' =>
    h a held' _ s' hsub hs' fun t => (hg t).trans (hg' _)

/-! ## What is locked stays -/

theorem order_rely {k : ℕ} (h : orderDiscipline.rely held s s') (hk : .partnerOrder k ∈ held)
    (ho : s.partnerOrders.find? k = some o) : s'.partnerOrders.find? k = some o := by
  have hframe : orderFrame (.partnerOrder k) s s' := Discipline.rely_frame h hk
  exact hframe o ho

/-- The partner owes `b`. -/
def Owes (k : ℕ) (b : ℤ) (s : OfficeDb) : Prop :=
  ∃ p, s.partners.find? k = some p ∧ p.balanceRial = b

theorem owes_rely {k : ℕ} {b : ℤ} (h : orderDiscipline.rely held s s') (hk : .partner k ∈ held)
    (hb : Owes k b s) : Owes k b s' := by
  obtain ⟨p, hp, rfl⟩ := hb
  have hframe : orderFrame (.partner k) s s' := Discipline.rely_frame h hk
  exact hframe p hp

theorem absent_rely {n : ℕ} (h : orderDiscipline.rely held s s') (hn : .store (.own n) ∈ held) :
    (s.partnerOrders.find? n = none → s'.partnerOrders.find? n = none) ∧
      (s.settlements.find? n = none → s'.settlements.find? n = none) := by
  have hframe : orderFrame (.store (.own n)) s s' := Discipline.rely_frame h hn
  exact hframe

theorem chart_rely (h : orderDiscipline.rely held s s') : ChartKept s.books s'.books :=
  (kept_rely h).1.chart

theorem agrees_rely (hs : Agrees s) (h : orderDiscipline.rely held s s') : Agrees s' :=
  hs.run (Discipline.rely_run h)

theorem guar_refl (s : OfficeDb) : orderDiscipline.guar held s s :=
  ⟨orderDiscipline.trans_refl s, fun r _ => orderFrame_refl r s⟩

/-- A commit that leaves alone what others may have locked. -/
theorem guar_of (hstep : OrderStep s s')
    (horders : ∀ k, .partnerOrder k ∉ held → ∀ o, s.partnerOrders.find? k = some o →
      s'.partnerOrders.find? k = some o)
    (hpartners : ∀ k, .partner k ∉ held → s'.partners.find? k = s.partners.find? k)
    (habsent : ∀ n, .store (.own n) ∉ held →
      (s.partnerOrders.find? n = none → s'.partnerOrders.find? n = none) ∧
        (s.settlements.find? n = none → s'.settlements.find? n = none)) :
    orderDiscipline.guar held s s' := by
  refine ⟨hstep, fun r hr => ?_⟩
  show orderFrame r s s'
  unfold orderFrame
  split
  · exact horders _ hr
  · exact fun p hp => ⟨p, (hpartners _ hr).trans hp, rfl⟩
  · exact habsent _ hr
  · trivial

/-! ## The journal and the line of the partner -/

/-- A journal with the effect `d` on account 1050 is posted, and the order takes its id. -/
structure Journals (id : ℕ) (link : ℕ → PartnerOrder → PartnerOrder) (d : ℤ) (t t' : OfficeDb) :
    Prop where
  partners : t'.partners = t.partners
  settlements : t'.settlements = t.settlements
  marks : t'.orderMarks = t.orderMarks
  books : ∃ j, JournalAdded t.books t'.books j ∧
    entryEffect .rial t.books PARTNER_RECEIVABLE j.ledgerEntries = d ∧
    ∀ k, t'.partnerOrders.find? k = (t.partnerOrders.find? k).map fun r =>
      if r.id = id then link j.id r else r

/-- The line of the partner moves the balance by `d`, and nothing else about the orders. -/
structure Charged (k : ℕ) (d : ℤ) (t t' : OfficeDb) : Prop where
  orders : t'.partnerOrders = t.partnerOrders
  settlements : t'.settlements = t.settlements
  books : t'.books = t.books
  marks : t'.orderMarks = t.orderMarks
  total : t'.partnersTotal = t.partnersTotal + d
  others : ∀ p, p ≠ k → t'.partners.find? p = t.partners.find? p

theorem wp_post {input : PartyLedgerService.PartyLedgerInput}
    (hg : ∀ t, ChartKept s.books t.books → (g t).partners = t.partners)
    {post : ℕ → List OfficeRow → (OfficeDb → OfficeDb) → OfficeDb → Prop}
    (h : ∀ n held' b g' s', (∀ r ∈ held, r ∈ held') → .partner input.partyId ∈ held' →
      orderDiscipline.rely held s s' → Owes input.partyId b s' →
      (∀ t, ChartKept s'.books t.books → Owes input.partyId b t →
        Charged input.partyId (input.debitRial - input.creditRial) (g t) (g' t)) →
      post n held' g' s') :
    (PartyLedgerService.post input).wp orderDiscipline held g post s := by
  simp only [PartyLedgerService.post, Block.wp_bind, Block.wp_lock, Block.wp_get,
    Block.wp_getOrFail]
  intro s₁ h₁ s₂ h₂ party hparty
  rw [hg s₂ ((chart_rely h₁).trans (chart_rely h₂))] at hparty
  refine OfficeDb.partnerRows.wp_update fun s₃ _ h₃ _ => ?_
  refine OfficeDb.partyLedgerRows.wp_create quiet_bump fun n s₄ h₄ _ => ?_
  have hheld : OfficeRow.partner input.partyId ∈ OfficeRow.partner input.partyId :: held :=
    List.mem_cons_self ..
  have howes : Owes input.partyId party.balanceRial s₄ :=
    owes_rely h₄ (List.mem_cons_of_mem _ hheld) (owes_rely h₃ hheld ⟨party, hparty, rfl⟩)
  have hsub : ∀ r ∈ held, r ∈ OfficeRow.partner input.partyId :: held := fun r hr =>
    List.mem_cons_of_mem _ hr
  have hrely : orderDiscipline.rely held s s₄ := by
    refine Discipline.rely_trans h₁ (Discipline.rely_trans (Discipline.rely_mono hsub h₂) ?_)
    refine Discipline.rely_trans (Discipline.rely_mono hsub h₃) (Discipline.rely_mono ?_ h₄)
    exact fun r hr => List.mem_cons_of_mem _ (hsub r hr)
  refine h n _ party.balanceRial _ s₄ ?_ ?_ hrely howes fun t hchart ht => ?_
  · exact fun r hr => List.mem_cons_of_mem _ (List.mem_cons_of_mem _ (hsub r hr))
  · exact List.mem_cons_of_mem _ (List.mem_cons_of_mem _ hheld)
  · obtain ⟨p, hp, hbalance⟩ := ht
    rw [← hg t ((chart_rely hrely).trans hchart)] at hp
    have hid : ∀ p : SalesPartner, { p with
        balanceRial := party.balanceRial + input.debitRial - input.creditRial }.id = p.id :=
      fun _ => rfl
    refine ⟨rfl, rfl, rfl, rfl, ?_, fun k hk => ?_⟩
    · refine (Table.sum_update (g t).partners hp _ hid SalesPartner.balanceRial).trans ?_
      show (g t).partnersTotal - p.balanceRial + _ = _
      rw [hbalance]
      ring
    · exact Table.find?_update_of_ne _ hk _ hid

/-- A journal for an order, posted for good. -/
theorem journals_posting (link : ℕ → PartnerOrder → PartnerOrder) (hlink : ∀ n r, (link n r).id = r.id)
    {params : JournalInput} {posted : List PostedLine} {d now : ℤ} {id : ℕ}
    (hadded : ∃ j, JournalAdded t.books (Stmt.writeJournal now params posted t.books) j ∧
      entryEffect .rial t.books PARTNER_RECEIVABLE j.ledgerEntries = d) :
    Journals id link d t (OfficeStmt.posting now params posted
      (fun n t => t.setPartnerOrders (t.partnerOrders.update id (link n) (hlink n))) t) := by
  obtain ⟨j, hj, heffect⟩ := hadded
  refine ⟨rfl, rfl, rfl, j, hj, heffect, fun k => ?_⟩
  rw [hj.id]
  refine (Table.find?_updateWhere _ _ _ (hlink _) k).trans ?_
  simp only [beq_iff_eq]
  rfl

theorem Journals.trans_alone {id : ℕ} {link : ℕ → PartnerOrder → PartnerOrder} {d : ℤ}
    (h : Alone s t) (h' : Journals id link d t t') : Journals id link d s t' := by
  obtain ⟨j, hj, heffect, horders⟩ := h'.books
  rw [h.books] at hj heffect
  rw [h.orders] at horders
  exact ⟨h'.partners.trans h.partners, h'.settlements.trans h.settlements, h'.marks.trans h.marks,
    j, hj, heffect, horders⟩

/-! ### The effect of the lines on account 1050 -/

theorem lineEffect_append (code : String) (lines lines' : List LedgerLineInput) :
    lineEffect .rial code (lines ++ lines') =
      lineEffect .rial code lines + lineEffect .rial code lines' := by
  simp [lineEffect]

theorem lineEffect_of_ne {code : String} {lines : List LedgerLineInput}
    (h : ∀ l ∈ lines, l.accountCode ≠ code) : lineEffect .rial code lines = 0 := by
  rw [lineEffect, List.sum_eq_zero]
  intro x hx
  obtain ⟨l, hl, rfl⟩ := List.mem_map.mp hx
  exact if_neg (h l hl)

theorem code_lineUnlessZero {code : String} {side : LedgerSide} {n : ℤ} :
    ∀ l ∈ lineUnlessZero code side n, l.accountCode = code := by
  intro l hl
  unfold lineUnlessZero at hl
  split at hl
  · rw [List.mem_singleton.mp hl]
  · cases hl

theorem lineEffect_receivable (side : LedgerSide) (n : ℤ) :
    lineEffect .rial PARTNER_RECEIVABLE
        [{ accountCode := PARTNER_RECEIVABLE, side := side, amountRial := rials n }] =
      if side = .debit then n else -n := by
  have hnature : natureOf PARTNER_RECEIVABLE = .debit := by decide +kernel
  simp [lineEffect, sideEffect, hnature, Commodity.rial, rials]

theorem lineEffect_commonLines (o : PartnerOrder) :
    lineEffect .rial PARTNER_RECEIVABLE (commonLines o) = o.netReceivableRial := by
  have hzero : ∀ code side n, code ≠ PARTNER_RECEIVABLE →
      lineEffect .rial PARTNER_RECEIVABLE (lineUnlessZero code side n) = 0 := fun code side n hne =>
    lineEffect_of_ne fun l hl => by rwa [code_lineUnlessZero l hl]
  rw [commonLines, lineEffect_append, lineEffect_append, lineEffect_append, lineEffect_receivable,
    hzero _ _ _ (by decide), hzero _ _ _ (by decide), hzero _ _ _ (by decide)]
  simp

theorem lineEffect_meltedLines (o : PartnerOrder) :
    lineEffect .rial PARTNER_RECEIVABLE (meltedLines o) = o.netReceivableRial := by
  rw [meltedLines, lineEffect_append, lineEffect_commonLines, lineEffect_of_ne, add_zero]
  simp [USER_GOLD, GOLD_COVERAGE, PARTNER_RECEIVABLE]

theorem lineEffect_barLines (o : PartnerOrder) (cost : ℚ) :
    lineEffect .rial PARTNER_RECEIVABLE (barLines o cost) = o.netReceivableRial := by
  rw [barLines, lineEffect_append, lineEffect_append, lineEffect_commonLines, lineEffect_of_ne,
    lineEffect_of_ne, add_zero, add_zero]
  · intro l hl
    rw [code_lineUnlessZero l hl]
    decide
  · simp [BAR_SALE, BAR_COGS, BULLION, PARTNER_RECEIVABLE]

/-! ## Registering, confirming and cancelling -/

theorem wp_lock {orderId : ℕ} {post : PartnerOrder × SalesPartner → List OfficeRow →
      (OfficeDb → OfficeDb) → OfficeDb → Prop}
    (h : ∀ o partner s', orderDiscipline.rely [] s s' →
      s'.partnerOrders.find? orderId = some o → s'.partners.find? o.partnerId = some partner →
      post (o, partner) [.partnerOrder orderId] id s') :
    (lock orderId).wp orderDiscipline [] id post s := by
  simp only [lock, Block.wp_bind, Block.wp_lock, Block.wp_get, Block.wp_getOrFail, Block.wp_pure]
  intro s₁ h₁ s₂ h₂ o ho partner hpartner
  exact h o partner s₂ (Discipline.rely_trans h₁ (Discipline.rely_mono (by simp) h₂)) ho hpartner

/-- The id of the journal goes to the order. -/
def linkConfirm (journalId : ℕ) (r : PartnerOrder) : PartnerOrder :=
  { r with confirmJournalId := some journalId }

theorem id_linkConfirm (journalId : ℕ) (r : PartnerOrder) : (linkConfirm journalId r).id = r.id := rfl

/-- The journal of a confirmation, whenever it is committed. -/
theorem wp_postConfirmation {transactionId : Option ℕ} {lines : List LedgerLineInput}
    (hg : ∀ t, Alone t (g t)) (hfits : ∀ l ∈ lines, LineFits l)
    (heffect : lineEffect .rial PARTNER_RECEIVABLE lines = o.netReceivableRial)
    {post : Unit → List OfficeRow → (OfficeDb → OfficeDb) → OfficeDb → Prop}
    (h : ∀ held' g' s', (∀ r ∈ held, r ∈ held') → orderDiscipline.rely held s s' →
      (∀ t, ChartKept s'.books t.books →
        Journals o.id linkConfirm o.netReceivableRial t (g' t)) → post () held' g' s') :
    (postConfirmation o partner adminId transactionId lines).wp orderDiscipline held g post s := by
  refine OfficeStmt.wp_postJournal fun s₁ posted s₂ h₁ hposting h₂ => ?_
  rw [(hg s₁).books] at hposting
  refine h _ _ s₂ (fun r hr => List.mem_append_right _ hr) (Discipline.rely_trans h₁ h₂)
    fun t ht => ?_
  refine Journals.trans_alone (hg t) (journals_posting linkConfirm id_linkConfirm ?_)
  have hchart := (chart_rely h₂).trans ht
  rw [(hg t).books]
  obtain ⟨j, hj, hentries⟩ := journalAdded_write { confirmJournal o partner adminId transactionId
    lines with entryDate := some ((confirmJournal o partner adminId transactionId
      lines).entryDate.getD (g s₁).now) } hposting hchart hfits
  refine ⟨j, hj, ?_⟩
  rw [hentries, entryEffect_posted .rial (hposting.inChart.kept hchart), hposting.lines,
    lineEffect_redirected .rial _ _ (by decide +kernel)]
  exact heffect

/-- Delivery and journal of a confirmation. -/
theorem wp_deliver {post : Option ℕ → List OfficeRow → (OfficeDb → OfficeDb) → OfficeDb → Prop}
    (h : ∀ transactionId held' g' s', (∀ r ∈ held, r ∈ held') →
      orderDiscipline.rely held s s' → (∀ t, ChartKept s'.books t.books →
        Journals o.id linkConfirm o.netReceivableRial t (g' t)) → post transactionId held' g' s') :
    (deliver o partner adminId m).wp orderDiscipline held id post s := by
  unfold deliver
  split
  · rw [Block.wp_bind]
    refine wp_alone within_deliverMelted Alone.refl fun n held₁ g₁ s₁ hsub₁ h₁ hg₁ => ?_
    rw [Block.wp_bind]
    refine wp_postConfirmation hg₁ (fits_meltedLines o) (lineEffect_meltedLines o)
      fun held₂ g₂ s₂ hsub₂ h₂ hg₂ => ?_
    exact h _ held₂ g₂ s₂ (fun r hr => hsub₂ r (hsub₁ r hr))
      (Discipline.rely_trans h₁ (Discipline.rely_mono hsub₁ h₂)) hg₂
  · rw [Block.wp_bind]
    refine wp_alone within_deliverBar Alone.refl fun _ held₁ g₁ s₁ hsub₁ h₁ hg₁ => ?_
    rw [Block.wp_bind, Block.wp_get]
    intro s₂ h₂
    rw [Block.wp_bind]
    refine wp_postConfirmation hg₁ (fits_barLines o (fits_averageCostRial _ _ _))
      (lineEffect_barLines o _) fun held₃ g₃ s₃ hsub₃ h₃ hg₃ => ?_
    have h₁₃ := Discipline.rely_trans (Discipline.rely_mono hsub₁ h₂) (Discipline.rely_mono hsub₁ h₃)
    exact h _ held₃ g₃ s₃ (fun r hr => hsub₃ r (hsub₁ r hr)) (Discipline.rely_trans h₁ h₁₃) hg₃

/-- What moves with a journal and the line of the partner. -/
theorem moved_charged {k orderId : ℕ} {d : ℤ} {link : ℕ → PartnerOrder → PartnerOrder} {u : OfficeDb}
    (hj : Journals orderId link d s t) (hc : Charged k d t u) : Moved d s u := by
  obtain ⟨j, hadded, heffect, -⟩ := hj.books
  constructor
  · rw [hc.total, OfficeDb.partnersTotal, hj.partners]
    rfl
  · rw [OfficeDb.receivable, hc.books, hadded.balance, heffect]
    rfl

theorem puts_update (f : PartnerOrder → PartnerOrder) (hf : ∀ r, (f r).id = r.id)
    (ho : s.partnerOrders.find? o.id = some o) :
    Puts (f o) s (s.setPartnerOrders (s.partnerOrders.update o.id f hf)) := by
  intro k
  rw [hf, OfficeDb.setPartnerOrders_partnerOrders]
  split
  · rename_i hk
    rw [hk, Table.find?_update_self, ho, Option.map_some]
  · rename_i hk
    exact Table.find?_update_of_ne _ hk f hf

/-- An order that is written in the place of the one that is locked. -/
theorem frames_puts {o' : PartnerOrder} (ho : s.partnerOrders.find? o.id = some o)
    (hput : Puts o' s s') (hid : o'.id = o.id) (hheld : .partnerOrder o.id ∈ held) :
    (∀ k, .partnerOrder k ∉ held → ∀ r, s.partnerOrders.find? k = some r →
        s'.partnerOrders.find? k = some r) ∧
      ∀ n, s.partnerOrders.find? n = none → s'.partnerOrders.find? n = none := by
  refine ⟨fun k hk r hr => ?_, fun n hn => ?_⟩
  · rw [hput, if_neg, hr]
    rintro rfl
    exact hk (hid ▸ hheld)
  · rw [hput, if_neg, hn]
    rintro rfl
    rw [hid, ho] at hn
    cases hn

/-- The step of an order that is taken on, with its journal and the line of the partner. -/
theorem guar_takenOn {k : ℕ} {d : ℤ} {link : ℕ → PartnerOrder → PartnerOrder} {u : OfficeDb}
    {f : PartnerOrder → PartnerOrder} {hf : ∀ r, (f r).id = r.id} {l : OfficeMark}
    (ho : s.partnerOrders.find? o.id = some o) (hlink : ∀ n r, (link n r).id = r.id)
    (hj : Journals o.id link d s t) (hc : Charged k d t u)
    (hk : .partner k ∈ held) (hheld : .partnerOrder o.id ∈ held)
    (hu : s' = (u.note l).setPartnerOrders (u.partnerOrders.update o.id f hf))
    (hchange : ∀ j : JournalEntry, s'.books.journals.find? j.id = some j →
      entryEffect .rial s'.books PARTNER_RECEIVABLE j.ledgerEntries = d →
      Puts (f (link j.id o)) s s' → Moved d s s' → s'.settlements = s.settlements →
      s'.orderMarks = s.orderMarks ++ (if OfficeDb.isOrderMark l then [l] else []) →
      OrderChange s s') : orderDiscipline.guar held s s' := by
  have hmoved := moved_charged hj hc
  obtain ⟨j, hadded, heffect, horders⟩ := hj.books
  rw [← hc.books] at hadded
  have hbooks : s'.books = u.books := by rw [hu]; rfl
  have hput : Puts (f (link j.id o)) s s' := by
    intro i
    subst hu
    refine (Table.find?_updateWhere _ _ _ hf i).trans ?_
    rw [hc.orders, horders]
    by_cases hi : i = o.id
    · rw [hi, ho, hf, hlink, if_pos rfl]
      simp [hlink]
    · rw [hf, hlink, if_neg hi]
      cases hr : s.partnerOrders.find? i with
      | none => rfl
      | some r =>
        have hid : r.id = i := Table.key_of_find? hr
        simp [hid, hi]
  have hsettlements : s'.settlements = s.settlements := by
    rw [hu]
    exact hc.settlements.trans hj.settlements
  have hmarks : s'.orderMarks = s.orderMarks ++ (if OfficeDb.isOrderMark l then [l] else []) := by
    rw [hu]
    refine (orderMarks_note l u).trans ?_
    rw [hc.marks, hj.marks]
  have hmoved' : Moved d s s' := by
    subst hu
    exact hmoved
  have hfind : s'.books.journals.find? j.id = some j := by
    rw [hbooks, hadded.id]
    exact hadded.find?_self
  have heffect' : entryEffect .rial s'.books PARTNER_RECEIVABLE j.ledgerEntries = d := by
    rw [hbooks, entryEffect_kept .rial hadded.chart hadded.sound.covered, heffect]
  refine guar_of ⟨?_, hchange j hfind heffect' hput hmoved' hsettlements hmarks⟩
    (fun i hi r hr => ?_) (fun p hp => ?_) fun n _ => ⟨fun hn => ?_, fun hn => ?_⟩
  · rw [hbooks]
    exact hadded.grow
  · rw [hput, if_neg, hr]
    rintro rfl
    rw [hf, hlink] at hi
    exact hi hheld
  · have hne : p ≠ k := fun heq => hp (heq ▸ hk)
    subst hu
    exact (hc.others p hne).trans (by rw [hj.partners])
  · rw [hput, if_neg, hn]
    rintro rfl
    rw [hf, hlink, ho] at hn
    cases hn
  · rw [hsettlements, hn]

theorem pending_of_confirmable (h : assertConfirmable s o partner = .ok ()) : o.status = .pending := by
  unfold assertConfirmable at h
  by_contra hne
  rw [if_pos hne] at h
  cases h

theorem safe_confirm {orderId : ℕ} :
    (confirm orderId adminId m).Safe orderDiscipline (fun _ _ => True) s := by
  refine Call.safe_transaction (fun s₀ _ => ?_) fun _ _ _ => trivial
  rw [confirmOrder, Block.wp_bind]
  refine wp_lock fun o partner s₁ _ ho hpartner => ?_
  have hid : o.id = orderId := Table.key_of_find? ho
  have hpid : partner.id = o.partnerId := Table.key_of_find? hpartner
  subst hid
  refine Block.wp_ite.mpr ⟨fun _ => ?_, fun _ => ?_⟩
  · exact fun s' _ => ⟨guar_refl s', fun _ _ => trivial⟩
  simp only [Block.wp_bind, Block.wp_get, Block.wp_ofExcept]
  intro s₂ h₂ _ hassert
  have hpending := pending_of_confirmable hassert
  refine wp_deliver fun transactionId held₃ g₃ s₃ hsub₃ h₃ hg₃ => ?_
  refine wp_post (fun t ht => (hg₃ t ht).partners) fun n held₄ b g₄ s₄ hsub₄ hk h₄ howes hg₄ => ?_
  simp only [Block.wp_mark, Block.wp_pure]
  intro s₅ h₅ _
  refine OfficeDb.partnerOrderRows.wp_update fun s₆ _ h₆ _ s₇ h₇ => ⟨?_, fun _ _ => trivial⟩
  have hmem : OfficeRow.partnerOrder o.id ∈ held₄ := hsub₄ _ (hsub₃ _ (List.mem_singleton_self _))
  have h₄₇ : orderDiscipline.rely held₄ s₄ s₇ := Discipline.rely_trans h₅ (Discipline.rely_trans h₆
    (Discipline.rely_mono (fun r hr => List.mem_cons_of_mem _ hr) h₇))
  have h₁₇ : orderDiscipline.rely [.partnerOrder o.id] s₁ s₇ := by
    refine Discipline.rely_trans h₂ (Discipline.rely_trans h₃ ?_)
    exact Discipline.rely_trans (Discipline.rely_mono hsub₃ h₄)
      (Discipline.rely_mono (fun r hr => hsub₄ r (hsub₃ r hr)) h₄₇)
  have ho₇ := order_rely h₁₇ (List.mem_singleton_self _) ho
  have hj := hg₃ s₇ ((chart_rely h₄).trans (chart_rely h₄₇))
  have hc := hg₄ s₇ (chart_rely h₄₇) (owes_rely h₄₇ hk howes)
  rw [sub_zero] at hc
  refine guar_takenOn (l := .confirms o.id) ho₇ id_linkConfirm hj hc (List.mem_cons_of_mem _ hk)
    (List.mem_cons_of_mem _ hmem) rfl fun j hfind heffect hput hmoved hsettlements hmarks => ?_
  exact .confirm o _ ⟨ho₇, hput, rfl, rfl, hsettlements⟩ hpending rfl ⟨j.id, j, rfl, hfind, heffect⟩
    hmarks hmoved

theorem safe_cancel {orderId : ℕ} {reason : String} :
    (cancel orderId reason adminId).Safe orderDiscipline (fun _ _ => True) s := by
  refine Call.safe_transaction (fun s₀ _ => ?_) fun _ _ _ => trivial
  rw [Block.wp_bind]
  refine wp_lock fun o partner s₁ _ ho _ => ?_
  have hid : o.id = orderId := Table.key_of_find? ho
  subst hid
  refine Block.wp_ite.mpr ⟨fun _ => ?_, fun _ => ?_⟩
  · exact fun s' _ => ⟨guar_refl s', fun _ _ => trivial⟩
  simp only [Block.wp_bind, Block.wp_check, Block.wp_pure, beq_iff_eq]
  intro hpending
  refine OfficeDb.partnerOrderRows.wp_update fun s₂ _ h₂ _ s₃ h₃ => ⟨?_, fun _ _ => trivial⟩
  have hheld : OfficeRow.partnerOrder o.id ∈ [OfficeRow.partnerOrder o.id] :=
    List.mem_singleton_self _
  have ho₃ := order_rely h₃ (List.mem_cons_of_mem _ hheld) (order_rely h₂ hheld ho)
  have hput := puts_update (fun r => { r with
    status := .cancelled
    cancelReason := some (reason ++ if adminId.isSome then "" else " (اعلام شریک)") })
    (fun _ => rfl) ho₃
  obtain ⟨horders, hnew⟩ := frames_puts ho₃ hput rfl (List.mem_cons_of_mem _ hheld)
  refine guar_of ⟨.refl _, ?_⟩ horders (fun _ _ => rfl) fun n _ => ⟨hnew n, fun h => h⟩
  exact .cancel o _ ⟨ho₃, hput, rfl, rfl, rfl⟩ hpending rfl rfl (moved_refl s₃)

/-! ## Refunding -/

/-- The id of the reversing journal goes to the order. -/
def linkReversal (journalId : ℕ) (r : PartnerOrder) : PartnerOrder :=
  { r with refundJournalId := some journalId }

theorem id_linkReversal (journalId : ℕ) (r : PartnerOrder) :
    (linkReversal journalId r).id = r.id := rfl

/-- The reversal of the journal of a confirmation takes back what the partner owes. -/
theorem wp_reversal {journalId : ℕ} {opts : ReversalOptions} (hs : Agrees s)
    (hg : ∀ t, Alone t (g t)) (hjournal : o.confirmJournalId = some journalId)
    (hstatus : o.status = .confirmed ∨ o.status = .settled) (hheld : .partnerOrder o.id ∈ held)
    (ho : s.partnerOrders.find? o.id = some o)
    {post : Unit → List OfficeRow → (OfficeDb → OfficeDb) → OfficeDb → Prop}
    (h : ∀ held' g' s', (∀ r ∈ held, r ∈ held') → orderDiscipline.rely held s s' →
      (∀ t, ChartKept s'.books t.books →
        Journals o.id linkReversal (-o.netReceivableRial) t (g' t)) → post () held' g' s') :
    (OfficeStmt.reverseJournal journalId opts fun n t => t.setPartnerOrders
      (t.partnerOrders.update o.id (linkReversal n) (id_linkReversal n))).wp orderDiscipline held g
        post s := by
  refine OfficeStmt.wp_reverseJournal fun s₀ original s₁ posted s₂ h₀ horiginal h₁ hposting h₂ => ?_
  rw [(hg s₀).books] at horiginal hposting
  rw [(hg s₁).books] at hposting
  -- what the journal did to account 1050
  have hs₀ := agrees_rely hs h₀
  obtain ⟨k, j, hk, hj, heffect⟩ := hs₀.journalized _ _ (order_rely h₀ hheld ho) hstatus
  rw [hjournal, Option.some.injEq] at hk
  subst hk
  rw [horiginal, Option.some.injEq] at hj
  subst hj
  have hcovered := (hs₀.sound original (Table.mem_of_find? horiginal)).covered
  refine h _ _ s₂ (fun r hr => List.mem_append_right _ hr)
    (Discipline.rely_trans h₀ (Discipline.rely_trans h₁ h₂)) fun t ht => ?_
  refine Journals.trans_alone (hg t) (journals_posting linkReversal id_linkReversal ?_)
  rw [(hg t).books, (hg s₀).books]
  have hchart := (chart_rely h₂).trans ht
  obtain ⟨j, hadded, hentries⟩ := journalAdded_reversal { reversalOf s₀.books original opts
    with entryDate := some ((reversalOf s₀.books original opts).entryDate.getD (g s₁).now) }
    hposting hcovered (chart_rely h₁) hchart
  refine ⟨j, hadded, ?_⟩
  rw [hentries, entryEffect_reversed,
    entryEffect_kept .rial ((chart_rely h₁).trans hchart) hcovered, heffect]

theorem safe_refund {orderId : ℕ} {reason : String} (hs : Agrees s) :
    (refund orderId reason adminId).Safe orderDiscipline (fun _ _ => True) s := by
  refine Call.safe_transaction (fun s₀ h₀ => ?_) fun _ _ _ => trivial
  rw [refundOrder, Block.wp_bind]
  refine wp_lock fun o partner s₁ h₁ ho hpartner => ?_
  have hid : o.id = orderId := Table.key_of_find? ho
  subst hid
  refine Block.wp_ite.mpr ⟨fun _ => ?_, fun _ => ?_⟩
  · exact fun s' _ => ⟨guar_refl s', fun _ _ => trivial⟩
  simp only [Block.wp_bind, Block.wp_check, Block.wp_getOrFail, Bool.or_eq_true, beq_iff_eq]
  intro hstatus journalId hjournal
  refine wp_alone within_takeBack Alone.refl fun _ held₂ g₂ s₂ hsub₂ h₂ hg₂ => ?_
  have hmem₂ : OfficeRow.partnerOrder o.id ∈ held₂ := hsub₂ _ (List.mem_singleton_self _)
  have ho₂ := order_rely h₂ (List.mem_singleton_self _) ho
  have hs₂ := agrees_rely (agrees_rely (agrees_rely hs h₀) h₁) h₂
  refine wp_reversal hs₂ hg₂ hjournal hstatus hmem₂ ho₂ fun held₃ g₃ s₃ hsub₃ h₃ hg₃ => ?_
  refine wp_post (fun t ht => (hg₃ t ht).partners) fun n held₄ b g₄ s₄ hsub₄ hk h₄ howes hg₄ => ?_
  simp only [Block.wp_mark, Block.wp_pure]
  intro s₅ h₅ _
  refine OfficeDb.partnerOrderRows.wp_update fun s₆ _ h₆ _ s₇ h₇ => ⟨?_, fun _ _ => trivial⟩
  have h₄₇ : orderDiscipline.rely held₄ s₄ s₇ := Discipline.rely_trans h₅ (Discipline.rely_trans h₆
    (Discipline.rely_mono (fun r hr => List.mem_cons_of_mem _ hr) h₇))
  have hmem₄ := hsub₄ _ (hsub₃ _ hmem₂)
  have ho₄ := order_rely h₄ (hsub₃ _ hmem₂) (order_rely h₃ hmem₂ ho₂)
  have ho₇ := order_rely h₄₇ hmem₄ ho₄
  have hj := hg₃ s₇ ((chart_rely h₄).trans (chart_rely h₄₇))
  have hc := hg₄ s₇ (chart_rely h₄₇) (owes_rely h₄₇ hk howes)
  rw [zero_sub] at hc
  refine guar_takenOn (l := .refunds o.id) ho₇ id_linkReversal hj hc (List.mem_cons_of_mem _ hk)
    (List.mem_cons_of_mem _ hmem₄) rfl fun j _ _ hput hmoved hsettlements hmarks => ?_
  exact .refund o _ ⟨ho₇, hput, rfl, rfl, hsettlements⟩ hstatus rfl hmarks hmoved

/-! ## Settling -/

theorem mem_allocate {left : ℚ} {os : List PartnerOrder} (h : o ∈ allocate left os) : o ∈ os := by
  induction os generalizing left with
  | nil => exact h
  | cons o' os ih =>
    rw [allocate] at h
    split at h
    · cases h
    · rcases List.mem_cons.mp h with rfl | h
      · exact List.mem_cons_self ..
      · exact List.mem_cons_of_mem _ (ih h)

/-- A payment is enough for the orders it is allocated to. -/
theorem allocate_le {left : ℚ} (hleft : 0 ≤ left) (os : List PartnerOrder) :
    ((allocate left os).map fun o => rials o.netReceivableRial).sum ≤ left := by
  induction os generalizing left with
  | nil => exact hleft
  | cons o os ih =>
    rw [allocate]
    split
    · exact hleft
    · rename_i hle
      rw [List.map_cons, List.sum_cons]
      have hrest : 0 ≤ left - rials o.netReceivableRial := by linarith
      have := ih hrest
      linarith

theorem sum_rials (os : List PartnerOrder) : (os.map fun o => rials o.netReceivableRial).sum =
    rials (os.map PartnerOrder.netReceivableRial).sum := by
  induction os with
  | nil => exact (Numeric.ofScale_zero _).symm
  | cons o os ih =>
    rw [List.map_cons, List.sum_cons, ih, List.map_cons, List.sum_cons]
    exact (Numeric.ofScale_add _ _ _).symm

/-- The orders that a settlement is for are there, and if it has chosen them itself, it is
enough for them. -/
theorem coveredOrders_ok {partnerId : ℕ} {amount : ℤ} {dto : PartnerSettlementDto}
    {orders : List PartnerOrder} (hamount : 0 ≤ amount)
    (h : coveredOrders s partnerId (rials amount) dto = .ok orders) :
    (∀ o ∈ orders, o ∈ s.partnerOrders.rows) ∧
      ((dto.orderIds.isEmpty && dto.autoAllocate) = true →
        (orders.map PartnerOrder.netReceivableRial).sum ≤ amount) := by
  unfold coveredOrders at h
  split at h
  · rename_i hids
    dsimp only at h
    split at h
    · cases h
    · split at h
      · cases h
      · obtain rfl := Except.ok.inj h
        exact ⟨fun o ho => (List.mem_filter.mp ho).1, fun hauto => by simp_all⟩
  · split at h
    · obtain rfl := Except.ok.inj h
      refine ⟨fun o ho => ?_, fun _ => ?_⟩
      · have hmem := List.mem_mergeSort.mp (mem_allocate ho)
        exact (List.mem_filter.mp hmem).1
      · have hrials : (0 : ℚ) ≤ rials amount := by
          rw [rials, ← Numeric.ofScale_zero rialScale]
          exact Numeric.ofScale_le.mpr hamount
        have hle := allocate_le hrials ((s.partnerOrders.rows.filter fun o =>
          o.partnerId == partnerId && o.status == .confirmed).mergeSort dueFirst)
        rw [sum_rials] at hle
        exact Numeric.ofScale_le.mp hle
    · obtain rfl := Except.ok.inj h
      exact ⟨by simp, fun _ => by simpa using hamount⟩

/-- The settlement `n` is inserted and its journal posted. -/
structure Booked (n : ℕ) (amount : ℤ) (t t' : OfficeDb) : Prop where
  orders : t'.partnerOrders = t.partnerOrders
  partners : t'.partners = t.partners
  marks : t'.orderMarks = t.orderMarks
  settlement : ∃ st : PartnerSettlement, st.id = n ∧ st.amountRial = amount ∧
    ∀ k, t'.settlements.find? k = if k = n then some st else t.settlements.find? k
  books : ∃ j, JournalAdded t.books t'.books j ∧
    entryEffect .rial t.books PARTNER_RECEIVABLE j.ledgerEntries = -amount

/-- The cash code of a settlement. -/
theorem cashCode_ne {code : Option { code : String // isBankCode code = true }} :
    (code.map Subtype.val).getD CASH ≠ PARTNER_RECEIVABLE := by
  cases code with
  | none => decide
  | some code =>
    obtain ⟨code, hcode⟩ := code
    intro heq
    have heq : code = PARTNER_RECEIVABLE := heq
    have hno : isBankCode PARTNER_RECEIVABLE = false := by decide +kernel
    rw [heq, hno] at hcode
    cases hcode

theorem fits_settlementJournal (amount : ℤ) (cashCode : String) (adminId : Option ℕ)
    (description : String) :
    ∀ l ∈ (settlementJournal (rials amount) cashCode adminId description).lines, LineFits l := by
  simp only [settlementJournal, List.mem_cons, List.not_mem_nil, or_false]
  rintro l (rfl | rfl)
  · exact ⟨fits_rials _, fits_zero _⟩
  · exact ⟨fits_rials _, fits_zero _⟩

theorem lineEffect_settlementJournal (amount : ℤ) {cashCode : String} (adminId : Option ℕ)
    (description : String) (hne : cashCode ≠ PARTNER_RECEIVABLE) : lineEffect .rial PARTNER_RECEIVABLE
      (settlementJournal (rials amount) cashCode adminId description).lines = -amount := by
  have hlines : (settlementJournal (rials amount) cashCode adminId description).lines =
      [{ accountCode := cashCode, side := .debit, amountRial := rials amount }] ++
        [{ accountCode := PARTNER_RECEIVABLE, side := .credit, amountRial := rials amount }] := rfl
  rw [hlines, lineEffect_append, lineEffect_of_ne (by simpa using hne), lineEffect_receivable,
    zero_add, if_neg (by decide)]

/-- The id of the journal goes to the settlement. -/
def linkSettlement (journalId : ℕ) (r : PartnerSettlement) : PartnerSettlement :=
  { r with journalEntryId := some journalId }

theorem id_linkSettlement (journalId : ℕ) (r : PartnerSettlement) :
    (linkSettlement journalId r).id = r.id := rfl

/-- A settlement that is inserted and takes the id of its journal, whenever it is committed. -/
theorem booked_posting {row : PartnerSettlement} {now : ℤ} {params : JournalInput}
    {posted : List PostedLine} (hnew : t.settlements.find? row.id = none)
    (hadded : ∃ j, JournalAdded t.books (Stmt.writeJournal now params posted t.books) j ∧
      entryEffect .rial t.books PARTNER_RECEIVABLE j.ledgerEntries = -row.amountRial) :
    Booked row.id row.amountRial t (OfficeStmt.posting now params posted
      (fun k t => t.setSettlements (t.settlements.update row.id (linkSettlement k)
        (id_linkSettlement k)))
      (t.setSettlements (t.settlements.insert row))) := by
  refine ⟨rfl, rfl, rfl, ⟨linkSettlement t.books.journals.next row, rfl, rfl, fun k => ?_⟩, hadded⟩
  refine (Table.find?_updateWhere _ _ _ (id_linkSettlement _) k).trans ?_
  by_cases hk : k = row.id
  · have hfind : (t.settlements.insert row).find? k = some row :=
      hk ▸ Table.find?_insert_self hnew
    rw [if_pos hk]
    refine (congrArg _ hfind).trans ?_
    rw [Option.map_some, if_pos (by simp)]
    rfl
  · have hfind : (t.settlements.insert row).find? k = t.settlements.find? k :=
      Table.find?_insert_of_ne _ hk
    rw [if_neg hk]
    refine (congrArg _ hfind).trans ?_
    cases hr : t.settlements.find? k with
    | none => rfl
    | some r =>
      have hid : r.id = k := Table.key_of_find? hr
      rw [Option.map_some, if_neg (by simp [hid, hk])]

theorem Booked.trans_alone {n : ℕ} {amount : ℤ} (h : Alone s t) (h' : Booked n amount t t') :
    Booked n amount s t' := by
  obtain ⟨st, hid, hamount, hsettlements⟩ := h'.settlement
  obtain ⟨j, hadded, heffect⟩ := h'.books
  rw [h.settlements] at hsettlements
  rw [h.books] at hadded heffect
  exact ⟨h'.orders.trans h.orders, h'.partners.trans h.partners, h'.marks.trans h.marks,
    ⟨st, hid, hamount, hsettlements⟩, j, hadded, heffect⟩

/-- The journal of a settlement that is inserted. -/
theorem wp_bookSettlement {row : PartnerSettlement} {params : JournalInput}
    (hfits : ∀ l ∈ params.lines, LineFits l)
    (heffect : lineEffect .rial PARTNER_RECEIVABLE params.lines = -row.amountRial)
    (hg : ∀ t, Alone t (g t))
    {post : Unit → List OfficeRow → (OfficeDb → OfficeDb) → OfficeDb → Prop}
    (h : ∀ held' g' s', (∀ r ∈ held, r ∈ held') → orderDiscipline.rely held s s' →
      (∀ t, (g' t).partnerOrders = t.partnerOrders ∧ (g' t).partners = t.partners) →
      (∀ t, ChartKept s'.books t.books → t.settlements.find? row.id = none →
        Booked row.id row.amountRial t (g' t)) → post () held' g' s') :
    (OfficeStmt.postJournal params fun k t => t.setSettlements
      (t.settlements.update row.id (linkSettlement k) (id_linkSettlement k))).wp orderDiscipline
        held ((fun t => t.setSettlements (t.settlements.insert row)) ∘ g) post s := by
  refine OfficeStmt.wp_postJournal fun s₁ posted s₂ h₁ hposting h₂ => ?_
  have hposting : Posting (g s₁).books params posted := hposting
  rw [(hg s₁).books] at hposting
  refine h _ _ s₂ (fun r hr => List.mem_append_right _ hr) (Discipline.rely_trans h₁ h₂)
    (fun t => ⟨(hg t).orders, (hg t).partners⟩) fun t hchart hnew => ?_
  rw [← (hg t).settlements] at hnew
  refine Booked.trans_alone (hg t) (booked_posting hnew ?_)
  have hkept := (chart_rely h₂).trans hchart
  rw [(hg t).books]
  obtain ⟨j, hadded, hentries⟩ := journalAdded_write { params with
    entryDate := some (params.entryDate.getD (g s₁).now) } hposting hkept hfits
  refine ⟨j, hadded, ?_⟩
  rw [hentries, entryEffect_posted .rial (hposting.inChart.kept hkept), hposting.lines,
    lineEffect_redirected .rial _ _ (by decide +kernel), heffect]

/-- The commit of a settlement whose orders are still CONFIRMED. -/
theorem guar_settle {n k : ℕ} {amount : ℤ} {auto : Bool} {ids : List ℕ} {u : OfficeDb}
    (hnew : s.settlements.find? n = none) (hbooked : Booked n amount s t)
    (hcharged : Charged k (-amount) t u) (hk : .partner k ∈ held) (hn : .store (.own n) ∈ held)
    (hheld : ∀ i ∈ ids, .partnerOrder i ∈ held)
    (hconfirmed : ∀ i ∈ ids, ∃ o, s.partnerOrders.find? i = some o ∧ o.status = .confirmed)
    (hauto : auto = true → (ids.map (netOf s)).sum ≤ amount)
    (hu : s' = (u.note (.settles n auto ids)).setPartnerOrders
      (u.partnerOrders.updateWhere (fun o => ids.contains o.id) (settled n) (id_settled n))) :
    orderDiscipline.guar held s s' := by
  obtain ⟨st, rfl, hst, hsettlements⟩ := hbooked.settlement
  obtain ⟨j, hadded, heffect⟩ := hbooked.books
  rw [← hcharged.books] at hadded
  have hbooks : s'.books = u.books := by rw [hu]; rfl
  have horders : ∀ k, s'.partnerOrders.find? k = (s.partnerOrders.find? k).map fun o =>
      if o.id ∈ ids then settled st.id o else o := by
    intro k
    rw [hu]
    refine (Table.find?_updateWhere _ _ _ (id_settled _) k).trans ?_
    rw [hcharged.orders, hbooked.orders]
    simp only [List.contains_iff_mem]
  have hsettlements' : ∀ k, s'.settlements.find? k =
      if k = st.id then some st else s.settlements.find? k := by
    intro k
    rw [hu]
    refine (congrArg (fun T => T.find? k) hcharged.settlements).trans ?_
    exact hsettlements k
  have hmarks : s'.orderMarks = s.orderMarks ++ [.settles st.id auto ids] := by
    rw [hu]
    refine (orderMarks_note _ u).trans ?_
    rw [hcharged.marks, hbooked.marks]
    rfl
  have hmoved : Moved (-st.amountRial) s s' := by
    subst hu
    rw [hst]
    constructor
    · refine hcharged.total.trans ?_
      rw [OfficeDb.partnersTotal, hbooked.partners]
      rfl
    · refine (hadded.balance _).trans ?_
      rw [heffect]
      rfl
  refine guar_of ⟨?_, .settle st auto ids hnew hconfirmed (hst ▸ hauto) horders hsettlements' hmarks
    hmoved⟩ (fun i hi o ho => ?_) (fun p hp => ?_) fun i hi => ⟨fun h => ?_, fun h => ?_⟩
  · rw [hbooks]
    exact hadded.grow
  · have hid : o.id = i := Table.key_of_find? ho
    rw [horders, ho, Option.map_some, if_neg]
    exact fun hmem => hi (hid ▸ hheld _ hmem)
  · have hne : p ≠ k := fun heq => hp (heq ▸ hk)
    subst hu
    exact (hcharged.others p hne).trans (by rw [hbooked.partners])
  · rw [horders, h]
    rfl
  · have hne : i ≠ st.id := fun heq => hi (heq ▸ hn)
    rw [hsettlements', if_neg hne, h]

/-- The statement on the covered orders: from the mark on they are locked and CONFIRMED. -/
theorem wp_markSettled {n : ℕ} {auto : Bool} {ids : List ℕ}
    (hg : ∀ t, orderDiscipline.rely held s t → (g t).partnerOrders = t.partnerOrders)
    {post : Unit → List OfficeRow → (OfficeDb → OfficeDb) → OfficeDb → Prop}
    (h : ∀ held' s', (∀ r ∈ held, r ∈ held') → orderDiscipline.rely held s s' →
      (∀ i ∈ ids, .partnerOrder i ∈ held') →
      (∀ i ∈ ids, ∃ o, s'.partnerOrders.find? i = some o ∧ o.status = .confirmed) →
      post () held' (fun t => ((g t).note (.settles n auto ids)).setPartnerOrders
        ((g t).partnerOrders.updateWhere (fun o => ids.contains o.id) (settled n)
          (id_settled n))) s') :
    (markSettled n auto ids).wp orderDiscipline held g post s := by
  rw [markSettled, Block.wp_bind]
  refine Block.wp_lockAll fun s₁ h₁ => ?_
  simp only [Block.wp_bind, Block.wp_mark, Block.wp_write]
  intro s₂ h₂ hcond
  have hsub : ∀ r ∈ held, r ∈ (ids.map OfficeRow.partnerOrder).reverse ++ held :=
    fun r hr => List.mem_append_right _ hr
  have hs₂ := Discipline.rely_trans h₁ (Discipline.rely_mono hsub h₂)
  refine h _ s₂ hsub hs₂ (fun i hi => ?_) fun i hi => ?_
  · exact List.mem_append_left _ (List.mem_reverse.mpr (List.mem_map_of_mem hi))
  · have hstill := hcond i hi
    rwa [hg s₂ hs₂] at hstill

theorem safe_settle {cal : Calendar} {dto : PartnerSettlementDto} :
    (settle cal adminId dto).Safe orderDiscipline (fun _ _ => True) s := by
  refine Call.safe_check_bind (fun _ _ => trivial) fun hpositive => ?_
  have hamount : 0 ≤ dto.amountRial.num :=
    Rat.num_nonneg.mpr (of_decide_eq_true hpositive).1.le
  refine Call.safe_transaction (fun s₀ _ => ?_) fun _ _ _ => trivial
  simp only [settleOrders, Block.wp_bind, Block.wp_get, Block.wp_getOrFail, Block.wp_check,
    Block.wp_ofExcept, Block.wp_pure]
  intro s₁ _ partner _ s₂ _ _ s₃ _ orders horders
  obtain ⟨hmem, hauto⟩ := coveredOrders_ok hamount horders
  refine wp_alone (within_nextNumber cal "PTS") Alone.refl fun _ held₄ g₄ s₄ hsub₄ h₄ hg₄ => ?_
  refine OfficeDb.settlementRows.wp_create quiet_bump fun n s₅ h₅ hnone => ?_
  have hnew : s₅.settlements.find? n = none := (hg₄ s₅).settlements ▸ hnone
  refine wp_bookSettlement ?_ ?_ hg₄ fun held₆ g₆ s₆ hsub₆ h₆ hsame hbooked => ?_
  · exact fits_settlementJournal _ _ adminId ""
  · exact lineEffect_settlementJournal _ adminId "" cashCode_ne
  have hn₆ : OfficeRow.store (.own n) ∈ held₆ := hsub₆ _ (List.mem_cons_self ..)
  refine wp_post (fun t _ => (hsame t).2) fun _ held₇ b g₇ s₇ hsub₇ hk h₇ howes hg₇ => ?_
  have hn₇ := hsub₇ _ hn₆
  -- what the statements before have pending
  have hpending : ∀ t, orderDiscipline.rely held₇ s₇ t →
      Booked n dto.amountRial.num t (g₆ t) ∧
        Charged partner.id (-dto.amountRial.num) (g₆ t) (g₇ t) := by
    intro t ht
    have hchart := chart_rely ht
    have hnew₆ := (absent_rely h₆ (List.mem_cons_self ..)).2 hnew
    have hnew₇ := (absent_rely ht hn₇).2 ((absent_rely h₇ hn₆).2 hnew₆)
    have hc := hg₇ t hchart (owes_rely ht hk howes)
    rw [zero_sub] at hc
    exact ⟨hbooked t ((chart_rely h₇).trans hchart) hnew₇, hc⟩
  refine wp_markSettled (fun t ht => ?_) fun held₈ s₈ hsub₈ h₈ hheld hconfirmed s₉ h₉ =>
    ⟨?_, fun _ _ => trivial⟩
  · exact (hpending t ht).2.orders.trans (hsame t).1
  have hs₉ : orderDiscipline.rely held₇ s₇ s₉ :=
    Discipline.rely_trans h₈ (Discipline.rely_mono hsub₈ h₉)
  obtain ⟨hbooked₉, hcharged₉⟩ := hpending s₉ hs₉
  have hnew₉ : s₉.settlements.find? n = none := by
    have hnew₇ := (absent_rely h₇ hn₆).2 ((absent_rely h₆ (List.mem_cons_self ..)).2 hnew)
    exact (absent_rely hs₉ hn₇).2 hnew₇
  refine guar_settle hnew₉ hbooked₉ hcharged₉ (hsub₈ _ hk) (hsub₈ _ hn₇) hheld (fun i hi => ?_)
    (fun hdto => ?_) rfl
  · obtain ⟨o, ho, hstatus⟩ := hconfirmed i hi
    exact ⟨o, order_rely h₉ (hheld i hi) ho, hstatus⟩
  · -- the amounts are those that were read
    have hkept : NetKept s₃ s₉ := by
      have h₃₉ : orderDiscipline.rely [] s₃ s₉ := by
        refine Discipline.rely_trans h₄ (Discipline.rely_trans (Discipline.rely_mono (by simp) h₅) ?_)
        refine Discipline.rely_trans (Discipline.rely_mono (by simp) h₆) ?_
        exact Discipline.rely_trans (Discipline.rely_mono (by simp) h₇)
          (Discipline.rely_mono (by simp) hs₉)
      exact (kept_rely h₃₉).2
    have hfind : ∀ o ∈ orders, s₃.partnerOrders.find? o.id = some o := fun o ho =>
      Table.find?_of_mem (hmem o ho)
    have hsum : ((orders.map PartnerOrder.id).map (netOf s₉)).sum =
        (orders.map PartnerOrder.netReceivableRial).sum := by
      rw [List.map_map]
      congr 1
      refine List.map_congr_left fun o ho => ?_
      rw [Function.comp_apply, netOf_kept hkept (hfind o ho), netOf, hfind o ho, Option.map_some,
        Option.getD_some]
    rw [hsum]
    exact hauto hdto

/-! ## Registering -/

/-- The commit of a new order. -/
theorem guar_register (hnew : s.partnerOrders.find? o.id = none) (hpending : o.status = .pending)
    (hn : .store (.own o.id) ∈ held) (ht : Alone s t)
    (hs' : s' = t.setPartnerOrders (t.partnerOrders.insert o)) :
    orderDiscipline.guar held s s' := by
  have hput : Puts o s s' := by
    intro k
    rw [hs', OfficeDb.setPartnerOrders_partnerOrders, ht.orders]
    split
    · rename_i hk
      rw [hk]
      exact Table.find?_insert_self hnew
    · rename_i hk
      exact Table.find?_insert_of_ne _ hk
  have hmoved : Moved 0 s s' := by
    subst hs'
    constructor
    · rw [add_zero]
      exact congrArg (fun T => Table.sum T SalesPartner.balanceRial) ht.partners
    · rw [add_zero]
      exact congrArg (fun b => balanceOf .rial b PARTNER_RECEIVABLE) ht.books
  have hbooks : s'.books = s.books := by
    subst hs'
    exact ht.books
  refine guar_of ⟨hbooks ▸ .refl _, .register o hnew hpending hput (hs' ▸ ht.settlements)
    (hs' ▸ ht.marks) hmoved⟩ (fun k _ r hr => ?_) (fun k _ => ?_) fun n hnheld => ⟨fun h => ?_, fun h => ?_⟩
  · rw [hput, if_neg, hr]
    rintro rfl
    rw [hnew] at hr
    cases hr
  · subst hs'
    exact congrArg (fun T => T.find? k) ht.partners
  · rw [hput, if_neg, h]
    rintro rfl
    exact hnheld hn
  · subst hs'
    exact (congrArg (fun T => T.find? n) ht.settlements).trans h

theorem safe_create {cal : Calendar} {market : Market} {input : CreateOrderInput} :
    (create cal market input).Safe orderDiscipline (fun _ _ => True) s := by
  unfold create
  refine Call.safe_get_bind (fun _ _ _ => trivial) fun _ s₁ _ _ => ?_
  refine Call.safe_getOrFail_bind (fun _ _ => trivial) fun partner _ => ?_
  refine Call.safe_get_bind (fun _ _ _ => trivial) fun t s₂ _ _ => ?_
  split
  · exact Call.safe_pure fun _ _ => trivial
  refine Call.safe_check_bind (fun _ _ => trivial) fun _ => ?_
  refine Call.safe_check_bind (fun _ _ => trivial) fun _ => ?_
  refine Call.safe_check_bind (fun _ _ => trivial) fun _ => ?_
  refine Call.safe_get_bind (fun _ _ _ => trivial) fun _ s₃ _ _ => ?_
  refine Call.safe_ofExcept_bind (fun _ _ _ => trivial) fun userId _ => ?_
  refine Call.safe_get_bind (fun _ _ _ => trivial) fun _ s₄ _ _ => ?_
  refine Call.safe_ofExcept_bind (fun _ _ _ => trivial) fun a _ => ?_
  refine Call.safe_ofExcept_bind (fun _ _ _ => trivial) fun _ _ => ?_
  refine Call.safe_transaction (fun s₅ _ => ?_) fun _ _ _ => trivial
  rw [insertOrder, Block.wp_bind]
  refine wp_alone (within_nextNumber cal "PTO") Alone.refl fun orderNumber held g s₆ _ _ hg => ?_
  simp only [OfficeStmt.createUnique, Block.wp_bind, Block.wp_get, Block.wp_lock, Block.wp_check]
  intro s₇ _ s₈ _ s₉ _ _
  refine OfficeDb.partnerOrderRows.wp_create quiet_bump fun n s₁₀ h₁₀ hnone s₁₁ h₁₁ =>
    ⟨?_, fun _ _ => trivial⟩
  have hnew : s₁₀.partnerOrders.find? n = none := (hg s₁₀).orders ▸ hnone
  have hn : OfficeRow.store (.own n) ∈ OfficeRow.store (.own n) ::
      OfficeRow.externalRef partner.id input.externalRef :: held := List.mem_cons_self ..
  exact guar_register ((absent_rely h₁₁ hn).1 hnew) rfl hn (hg s₁₁) rfl

/-! ## Every interleaving -/

/-- A request to the service. -/
inductive PartnerRequest where
  | create (market : Market) (input : CreateOrderInput)
  | confirm (orderId : ℕ) (adminId : Option ℕ) (m : Moments)
  | cancel (orderId : ℕ) (reason : String) (adminId : Option ℕ)
  | refund (orderId : ℕ) (reason : String) (adminId : Option ℕ)
  | settle (adminId : Option ℕ) (dto : PartnerSettlementDto)

/-- Its reply. -/
inductive PartnerReply where
  | order (id : ℕ)
  | taken (before : Bool)
  | settlement (id : ℕ)

/-- The service. -/
def serve (cal : Calendar) : PartnerRequest → OfficeService PartnerReply
  | .create market input => do pure (.order (← create cal market input))
  | .confirm orderId adminId m => do pure (.taken (← confirm orderId adminId m))
  | .cancel orderId reason adminId => do pure (.taken (← cancel orderId reason adminId))
  | .refund orderId reason adminId => do pure (.taken (← refund orderId reason adminId))
  | .settle adminId dto => do pure (.settlement (← settle cal adminId dto))

theorem safe_reply {α β : Type} {c : OfficeService α} {f : α → β}
    (h : c.Safe orderDiscipline (fun _ _ => True) s) :
    (do pure (f (← c)) : OfficeService β).Safe orderDiscipline (fun _ _ => True) s := by
  refine Call.safe_bind (Call.safe_mono (fun r t _ => ?_) h)
  cases r with
  | error e => trivial
  | ok a => exact Call.safe_pure fun _ _ => trivial

theorem safe_serve {cal : Calendar} (q : PartnerRequest) (hs : Agrees s) :
    (serve cal q).Safe orderDiscipline (fun _ _ => True) s := by
  cases q with
  | create market input => exact safe_reply safe_create
  | confirm orderId adminId m => exact safe_reply safe_confirm
  | cancel orderId reason adminId => exact safe_reply safe_cancel
  | refund orderId reason adminId => exact safe_reply (safe_refund hs)
  | settle adminId dto => exact safe_reply safe_settle

/-- The rest of the application: it posts sound journals that leave account 1050 alone, and
writes neither the orders nor what the partners owe. -/
structure Outside (s s' : OfficeDb) : Prop where
  orders : s'.partnerOrders = s.partnerOrders
  settlements : s'.settlements = s.settlements
  marks : s'.orderMarks = s.orderMarks
  partners : ∀ k b, Owes k b s → Owes k b s'
  total : s'.partnersTotal = s.partnersTotal
  books : BooksGrow s.books s'.books
  receivable : s'.receivable = s.receivable

theorem quiet_outside (s s' : OfficeDb) (h : Outside s s') :
    orderDiscipline.trans s s' ∧ ∀ r, orderDiscipline.frame r s s' := by
  refine ⟨⟨h.books, .none h.orders h.settlements h.marks ?_⟩, fun r => ?_⟩
  · exact ⟨by rw [h.total, add_zero], by rw [h.receivable, add_zero]⟩
  · show orderFrame r s s'
    unfold orderFrame
    split
    · exact fun _ ho => h.orders ▸ ho
    · exact fun p hp => h.partners _ _ ⟨p, hp, rfl⟩
    · exact ⟨fun hn => h.orders ▸ hn, fun hn => h.settlements ▸ hn⟩
    · trivial

/-- No order has been registered yet, and the books are in order. -/
structure NoOrders (s : OfficeDb) : Prop where
  orders : s.partnerOrders.rows = []
  marks : s.orderMarks = []
  total : s.partnersTotal = s.receivable
  sound : SoundBooks s.books

/-- The partner orders, the settlements, the partners and the books agree. -/
structure OrdersAgree (s : OfficeDb) : Prop where
  total : s.partnersTotal = s.receivable
  once : ∀ id, confirmsOf s id ≤ 1 ∧ refundsOf s id ≤ 1
  settled : ∀ id o, s.partnerOrders.find? id = some o → o.status = .settled →
    ∃ n st, o.settlementId = some n ∧ s.settlements.find? n = some st ∧ settlementsOf s id = [n]
  enough : ∀ n ids, .settles n true ids ∈ s.orderMarks →
    ∃ st, s.settlements.find? n = some st ∧ (ids.map (netOf s)).sum ≤ st.amountRial
  balanced : ∀ j ∈ s.books.journals.rows,
    DoubleEntry.Balanced LedgerEntry.side LedgerEntry.amountRial j.ledgerEntries ∧
      DoubleEntry.Balanced LedgerEntry.side LedgerEntry.amountGrams j.ledgerEntries

theorem NoOrders.agrees (h : NoOrders s) : Agrees s := by
  have hnone : ∀ k, s.partnerOrders.find? k = none := fun k =>
    Table.find?_eq_none.mpr (by simp [h.orders])
  exact ⟨h.total, h.sound, fun k o ho => by simp [hnone] at ho, fun k o ho => by simp [hnone] at ho,
    by simp [h.marks], by simp [h.marks]⟩

theorem Agrees.ordersAgree (h : Agrees s) : OrdersAgree s where
  total := h.total
  once id := by
    cases ho : s.partnerOrders.find? id with
    | none => simp [h.absent ho]
    | some o =>
      have hid : o.id = id := Table.key_of_find? ho
      have hstands := h.stands id o ho
      unfold Stands at hstands
      rw [hid] at hstands
      split at hstands <;> simp [hstands]
  settled id o ho hstatus := by
    have hid : o.id = id := Table.key_of_find? ho
    have hstands := h.stands id o ho
    simp only [Stands, hstatus, hid] at hstands
    obtain ⟨-, -, n, hsettlements, hsettlement⟩ := hstands
    have hn : n ∈ settlementsOf s id := hsettlements ▸ List.mem_singleton_self n
    obtain ⟨l, hl, hfor⟩ := List.mem_filterMap.mp hn
    cases l with
    | settles n' auto ids =>
      rw [settlementFor] at hfor
      split at hfor
      · obtain rfl := Option.some.inj hfor
        obtain ⟨st, hst, -⟩ := h.settlements _ _ _ hl
        exact ⟨_, st, hsettlement, hst, hsettlements⟩
      · cases hfor
    | _ => cases hfor
  enough n ids hm := by
    obtain ⟨st, hst, hsum⟩ := h.settlements n true ids hm
    exact ⟨st, hst, hsum rfl⟩
  balanced j hj := ⟨(h.sound j hj).rial, (h.sound j hj).grams⟩

/-- Along every interleaving of the calls, with transactions aborted at any point, the partner
orders agree with the ledger of the partners, and what is CANCELLED or REFUNDED stays so, as
long as the orders that a settlement marks are still CONFIRMED. -/
theorem partner_orders_agree (cal : Calendar) {s₀ : OfficeDb} (hstart : NoOrders s₀)
    {w w' : World PartnerRequest ApiError OfficeRow OfficeMark OfficeDb PartnerReply}
    (hrun : Runs (World.Step (serve cal) Outside) (World.Allowed StillConfirmed) ⟨s₀, []⟩ w)
    (hrun' : Runs (World.Step (serve cal) Outside) (World.Allowed StillConfirmed) w w') :
    OrdersAgree w.db ∧ Terminal w.db w'.db := by
  have hidle : World.Inv (α := PartnerReply) orderDiscipline (fun (_ : PartnerRequest) _ _ => True)
      (⟨s₀, []⟩ : World PartnerRequest ApiError OfficeRow OfficeMark OfficeDb PartnerReply) :=
    World.inv_idle
  have hsafe : ∀ {t : OfficeDb}, Agrees t → ∀ q s, Relation.ReflTransGen OrderStep t s →
      (serve cal q).Safe orderDiscipline (fun _ _ => True) s := fun ht q s hs =>
    safe_serve q (ht.run hs)
  obtain ⟨hreach, hinv⟩ :=
    World.inv_run quiet_bump quiet_outside (hsafe hstart.agrees) hidle hrun
  have hagrees : Agrees w.db := hstart.agrees.run hreach
  obtain ⟨hreach', -⟩ := World.inv_run quiet_bump quiet_outside (hsafe hagrees) hinv hrun'
  exact ⟨hagrees.ordersAgree, terminal_run hreach'⟩

/-! ## An order of a bar -/

/-- The customer of the order. -/
def verifiedUser : User := ⟨2, .active, some .verified⟩

/-- The office before the first order: a partner, a bar and a customer. -/
def newOffice : OfficeDb :=
  { OfficeDb.opening (Chart.opening ["1010", "1050", "4040", "5060", "1025"]) 0 with
    bars := barOffice.bars
    partners := barOffice.partners
    profiles := ⟨[⟨2, "0912", none, none, none⟩], 3, by decide, by decide⟩
    store := { Db.opening (Chart.opening ["1010", "1050", "4040", "5060", "1025"]) 0 with
      users := ⟨[verifiedUser], 3, by decide, by decide⟩ } }

/-- The bar is ordered for a thousand rials. -/
def orderBar : PartnerRequest :=
  .create { melted := 0, bar := fun _ => 1000 }
    { partnerId := 1, externalRef := "r", customerPhone := "0912", customerNationalCode := none,
      productKind := .bullion, amountGrams := none, amountRial := none, hologramCode := some "AG1",
      pricePerGramRial := none, wageRial := none, taxRial := none, createdViaApi := false }

/-- The partner pays a thousand rials for what is due. -/
def payOrders : PartnerRequest :=
  .settle none { partnerId := 1, amountRial := 1000, cashAccountCode := none, methodLabel := "",
                 referenceNumber := none, orderIds := [], autoAllocate := true }

/-- A session executes `n` statements. -/
def statements (n i : ℕ) : List (WorldEvent PartnerRequest ApiError OfficeDb) :=
  List.replicate n (.advance i)

/-- The order is registered and confirmed, and the partner is about to pay. -/
def sale : List (WorldEvent PartnerRequest ApiError OfficeDb) :=
  .start orderBar :: statements 25 0 ++ .start (.confirm 100 none ⟨2, 2⟩) :: statements 38 1 ++
    [.start payOrders]

/-- The order is refunded. -/
def takenBack : List (WorldEvent PartnerRequest ApiError OfficeDb) :=
  .start (.refund 100 "" none) :: statements 32 3

/-- Whether the orders that a settlement is about to mark are still CONFIRMED. -/
def stillConfirmed : OfficeMark → OfficeDb → Bool
  | .settles _ _ ids, s =>
    ids.all fun k => (s.partnerOrders.find? k).any fun o => o.status == .confirmed
  | _, _ => true

theorem stillConfirmed_sound (l : OfficeMark) (s : OfficeDb) (h : stillConfirmed l s = true) :
    StillConfirmed l s := by
  cases l with
  | settles n auto ids =>
    intro k hk
    have hany := List.all_eq_true.mp h k hk
    cases ho : s.partnerOrders.find? k with
    | none => simp [ho] at hany
    | some o => exact ⟨o, rfl, by simpa [ho] using hany⟩
  | _ => trivial

theorem noOrders_newOffice : NoOrders newOffice :=
  ⟨rfl, rfl, by decide, fun j hj => by cases hj⟩

/-- A world after the events, as long as the marks passed meet the condition. -/
abbrev played (cond : OfficeMark → OfficeDb → Bool)
    (w : World PartnerRequest ApiError OfficeRow OfficeMark OfficeDb PartnerReply)
    (es : List (WorldEvent PartnerRequest ApiError OfficeDb)) :
    Option (World PartnerRequest ApiError OfficeRow OfficeMark OfficeDb PartnerReply) :=
  w.playAllowed (serve .of1404) cond es

/-- The status of the order. -/
def orderStatus (s : OfficeDb) : Option PartnerOrderStatus :=
  (s.partnerOrders.find? 100).map PartnerOrder.status

/-- `partner_orders_agree` for an order that is settled and then refunded. -/
theorem partner_orders_agree_settled : ∃ w w',
    (played stillConfirmed ⟨newOffice, []⟩ (sale ++ statements 29 2) = some w ∧
      played stillConfirmed w takenBack = some w') ∧
    orderStatus w.db = some .settled ∧ orderStatus w'.db = some .refunded ∧
    OrdersAgree w.db ∧ Terminal w.db w'.db := by
  obtain ⟨w, hw⟩ := Option.isSome_iff_exists.mp
    (show (played stillConfirmed ⟨newOffice, []⟩ (sale ++ statements 29 2)).isSome = true by
      decide +kernel)
  have hnext : ((played stillConfirmed ⟨newOffice, []⟩ (sale ++ statements 29 2)).bind fun w =>
      (played stillConfirmed w takenBack).map fun w' => (orderStatus w.db, orderStatus w'.db)) =
      some (some .settled, some .refunded) := by decide +kernel
  rw [hw, Option.bind_some, Option.map_eq_some_iff] at hnext
  obtain ⟨w', hw', hstatus⟩ := hnext
  obtain ⟨hsettled, hrefunded⟩ := Prod.mk.inj hstatus
  refine ⟨w, w', ⟨hw, hw'⟩, hsettled, hrefunded, ?_⟩
  refine partner_orders_agree .of1404 noOrders_newOffice ?_ ?_
  · exact World.runs_of_playAllowed stillConfirmed_sound hw
      (by simp [sale, statements])
  · exact World.runs_of_playAllowed stillConfirmed_sound hw' (by simp [takenBack, statements])

/-- A settlement selects the order, the order is refunded, and the settlement marks it. -/
theorem settled_after_refund : NoOrders newOffice ∧ ∃ w w',
    Runs (World.Step (serve .of1404) Outside) always ⟨newOffice, []⟩ w ∧
      Runs (World.Step (serve .of1404) Outside) always w w' ∧
      ¬(OrdersAgree w.db ∧ Terminal w.db w'.db) := by
  refine ⟨noOrders_newOffice, ?_⟩
  obtain ⟨w, hw⟩ := Option.isSome_iff_exists.mp
    (show (played (fun _ _ => true) ⟨newOffice, []⟩ (sale ++ statements 4 2 ++ takenBack)).isSome =
      true by decide +kernel)
  have hnext : ((played (fun _ _ => true) ⟨newOffice, []⟩ (sale ++ statements 4 2 ++ takenBack)).bind
      fun w => (played (fun _ _ => true) w (statements 25 2)).map fun w' =>
        (orderStatus w.db, orderStatus w'.db)) = some (some .refunded, some .settled) := by
    decide +kernel
  rw [hw, Option.bind_some, Option.map_eq_some_iff] at hnext
  obtain ⟨w', hw', hstatus⟩ := hnext
  obtain ⟨hrefunded, hsettled⟩ := Prod.mk.inj hstatus
  have hrun : ∀ {v v' : World PartnerRequest ApiError OfficeRow OfficeMark OfficeDb PartnerReply} {es},
      played (fun _ _ => true) v es = some v' → (∀ e ∈ es, ∀ s, e ≠ .outside s) →
      Runs (World.Step (serve .of1404) Outside) always v v' := by
    intro v v' es h hinside
    have hallowed : Runs (World.Step (serve .of1404) Outside) (World.Allowed fun _ _ => True) v v' :=
      World.runs_of_playAllowed (fun _ _ _ => trivial) h hinside
    exact hallowed.mono fun _ _ _ => trivial
  refine ⟨w, w', hrun hw (by simp [sale, takenBack, statements]), hrun hw' (by simp [statements]), ?_⟩
  rintro ⟨-, hterminal⟩
  obtain ⟨o, ho, hstatus⟩ := Option.map_eq_some_iff.mp hrefunded
  obtain ⟨o', ho', hstatus'⟩ := hterminal 100 o ho (.inr hstatus)
  rw [orderStatus, ho', Option.map_some, Option.some.injEq, hstatus', hstatus] at hsettled
  cases hsettled

end PartnerOrdersService

end ArkanGold
