import ArkanGold.Store.OfficeRules
import ArkanGold.Deposits.DepositDiscipline

/-!
# The life cycle of a deposit

The calls on deposits keep to their discipline, so whatever their interleaving a request
follows `TRANSITIONS`, and it is credited, posted and its proforma consumed exactly when it
is APPROVED.

- `Aside`: numbers, receipts and transactions of the user do not concern the requests.
- `Banked`: what an approval does to wallet and books.
- `deposit_life_cycle`: the property of all runs, as long as an upload finds the request as
  its check did and nobody asks for a new receipt. A receipt that is asked for is never
  accepted (`upload_refused`), and uploads that were checked before a rejection come after it
  (`receipts_late`).
-/

namespace ArkanGold

open AccountingService DepositState

namespace DepositService

variable {s s' t t' u : OfficeDb} {held : List OfficeRow} {d : DepositRequest}
  {g : OfficeDb → OfficeDb}

/-! ## Steps that do not concern the requests -/

/-- Nothing about the requests differs, nor the wallets or the books. -/
structure Aside (s t : OfficeDb) : Prop where
  deposits : t.deposits = s.deposits
  invoices : t.invoices = s.invoices
  wallets : t.store.wallets = s.store.wallets
  books : t.books = s.books
  supply : t.store.nextId = s.store.nextId
  marks : t.depositMarks = s.depositMarks

theorem Aside.refl (s : OfficeDb) : Aside s s := ⟨rfl, rfl, rfl, rfl, rfl, rfl⟩

theorem Aside.trans (h : Aside s t) (h' : Aside t u) : Aside s u :=
  ⟨h'.deposits.trans h.deposits, h'.invoices.trans h.invoices, h'.wallets.trans h.wallets,
    h'.books.trans h.books, h'.supply.trans h.supply, h'.marks.trans h.marks⟩

theorem Aside.accounts (h : Aside s t) : Accounts s t :=
  ⟨h.books ▸ .refl _, fun _ w hw => ⟨w, h.wallets ▸ hw, rfl⟩⟩

theorem Aside.unpaid (h : Aside s t) : Unpaid s t where
  rial k := by rw [OfficeDb.walletRial, h.wallets, OfficeDb.walletRial]
  entries n := by rw [OfficeDb.depositEntries, h.books, OfficeDb.depositEntries]

theorem Aside.proformasKept (h : Aside s t) (others : Option ℕ) : ProformasKept others s t :=
  fun _ i hi => ⟨i, h.invoices ▸ hi, fun _ => Iff.rfl⟩

theorem Aside.idle (h : Aside s t) : Idle s t :=
  ⟨h.deposits, h.marks, h.unpaid, h.proformasKept none⟩

theorem frame_idle (hdeposits : t.deposits = s.deposits) (hsupply : s.store.nextId ≤ t.store.nextId)
    (r : OfficeRow) : depositFrame r s t := by
  unfold depositFrame
  split
  · exact fun _ hd => hdeposits ▸ hd
  · exact fun h => ⟨h.1.trans_le hsupply, hdeposits ▸ h.2⟩
  · trivial

theorem quiet_bump (s : OfficeDb) :
    depositDiscipline.trans s (Supply.bump s) ∧ ∀ r, depositDiscipline.frame r s (Supply.bump s) := by
  have hidle : Idle s (Supply.bump s) :=
    ⟨rfl, rfl, ⟨fun _ => rfl, fun _ => rfl⟩, fun _ i hi => ⟨i, hi, fun _ => Iff.rfl⟩⟩
  have haccounts : Accounts s (Supply.bump s) := ⟨.refl _, fun _ w hw => ⟨w, hw, rfl⟩⟩
  have hsupply : s.store.nextId ≤ (Supply.bump s).store.nextId := Nat.le_succ _
  exact ⟨⟨haccounts, hsupply, .idle hidle⟩, frame_idle rfl hsupply⟩

theorem depositMarks_note (l : OfficeMark) (s : OfficeDb) :
    (s.note l).depositMarks = s.depositMarks ++ if OfficeDb.isDepositMark l then [l] else [] := by
  rw [OfficeDb.depositMarks, OfficeDb.note_history, List.filter_append]
  cases h : OfficeDb.isDepositMark l <;> simp [OfficeDb.depositMarks, h]

/-- What others do does not hurt a step that does not concern the requests. -/
theorem wp_aside {α : Type} {x : OfficeStmt α} (hx : x.Within Aside)
    {post : α → List OfficeRow → (OfficeDb → OfficeDb) → OfficeDb → Prop}
    (h : ∀ a held' g' s', (∀ r ∈ held, r ∈ held') → depositDiscipline.rely held s s' →
      (∀ t, Aside t (g' t)) → post a held' (g' ∘ g) s') : x.wp depositDiscipline held g post s :=
  hx.wp Aside.refl (fun _ _ _ => Aside.trans) quiet_bump fun a held' g' s' hsub hg' hs' =>
    h a held' g' s' hsub hs' hg'

/-! ## What is locked stays -/

theorem deposit_rely {k : ℕ} (h : depositDiscipline.rely held s s') (hk : .deposit k ∈ held)
    (hd : s.deposits.find? k = some d) : s'.deposits.find? k = some d := by
  have hframe : depositFrame (.deposit k) s s' := Discipline.rely_frame h hk
  exact hframe d hd

theorem absent_rely {n : ℕ} (h : depositDiscipline.rely held s s') (hn : .store (.own n) ∈ held)
    (hdrawn : n < s.store.nextId) (hnone : s.deposits.find? n = none) :
    s'.deposits.find? n = none := by
  have hframe : depositFrame (.store (.own n)) s s' := Discipline.rely_frame h hn
  exact (hframe ⟨hdrawn, hnone⟩).2

theorem chart_rely (h : depositDiscipline.rely held s s') : ChartKept s.books s'.books :=
  (kept_rely h).accounts.chart

theorem guar_refl (s : OfficeDb) : depositDiscipline.guar held s s :=
  ⟨depositDiscipline.trans_refl s, fun r _ => depositFrame_refl r s⟩

/-- The commit of a request that is taken on. -/
theorem guar_taken {d' : DepositRequest} (haccounts : Accounts s s')
    (hsupply : s.store.nextId ≤ s'.store.nextId) (htaken : Taken d d' s s')
    (hheld : .deposit d.id ∈ held) : depositDiscipline.guar held s s' := by
  refine ⟨⟨haccounts, hsupply, .taken d d' htaken⟩, fun r hr => ?_⟩
  show depositFrame r s s'
  unfold depositFrame
  split
  · intro d₁ hd₁
    rw [htaken.find?, if_neg, hd₁]
    rintro rfl
    exact hr hheld
  · rintro ⟨hdrawn, hnone⟩
    refine ⟨hdrawn.trans_le hsupply, ?_⟩
    rw [htaken.find?, if_neg, hnone]
    rintro rfl
    rw [htaken.before] at hnone
    cases hnone
  · trivial

/-! ## The proforma -/

/-- What `updateProforma` writes. -/
def writeProforma (proformaInvoiceId : Option ℕ) (f : Invoice → Invoice)
    (hf : ∀ i, (f i).id = i.id) (t : OfficeDb) : OfficeDb :=
  match proformaInvoiceId with
  | none => t
  | some id => t.setInvoices (t.invoices.update id f hf)

theorem wp_updateProforma {p : Option ℕ} {f : Invoice → Invoice} {hf : ∀ i, (f i).id = i.id}
    {post : Unit → List OfficeRow → (OfficeDb → OfficeDb) → OfficeDb → Prop}
    (h : ∀ held' s', (∀ r ∈ held, r ∈ held') → depositDiscipline.rely held s s' →
      post () held' (writeProforma p f hf ∘ g) s') :
    (updateProforma p f hf).wp depositDiscipline held g post s := by
  cases p with
  | none => exact h held s (fun _ hr => hr) Discipline.rely_refl
  | some id =>
    refine OfficeDb.invoiceRows.wp_update fun s' _ hs' _ => ?_
    exact h _ s' (fun r hr => List.mem_cons_of_mem _ hr) hs'

theorem writeProforma_else (p : Option ℕ) (f : Invoice → Invoice) (hf : ∀ i, (f i).id = i.id)
    (t : OfficeDb) : (writeProforma p f hf t).deposits = t.deposits ∧
      (writeProforma p f hf t).store = t.store ∧ (writeProforma p f hf t).history = t.history := by
  cases p <;> exact ⟨rfl, rfl, rfl⟩

theorem find?_writeProforma (p : Option ℕ) (f : Invoice → Invoice) (hf : ∀ i, (f i).id = i.id)
    (t : OfficeDb) (k : ℕ) : (writeProforma p f hf t).invoices.find? k =
      (t.invoices.find? k).map fun i => if p = some k then f i else i := by
  cases p with
  | none => simp [writeProforma]
  | some id =>
    by_cases hk : id = k
    · subst hk
      simp [writeProforma]
    · have hne : some id ≠ some k := fun h => hk (Option.some.inj h)
      rw [writeProforma, OfficeDb.setInvoices_invoices, Table.find?_update_of_ne _ (Ne.symm hk)]
      simp [hk]

/-- A proforma, or none, that is no longer CONSUMED. -/
theorem proformas_written {p q : Option ℕ} {f : Invoice → Invoice} {hf : ∀ i, (f i).id = i.id}
    (hp : p = none ∨ p = q) (hinvoices : t.invoices = s.invoices) :
    ProformasKept q s (writeProforma p f hf t) := by
  intro k i hi
  refine ⟨_, by rw [find?_writeProforma, hinvoices, hi, Option.map_some], fun hq => ?_⟩
  rw [if_neg]
  rcases hp with rfl | rfl
  · simp
  · exact hq

/-! ## Requests that move without money -/

/-- The commit of a request that moves, but not to APPROVED. -/
theorem guar_moved (f : DepositRequest → DepositRequest) (hf : ∀ r, (f r).id = r.id) (p : Option ℕ)
    (fp : Invoice → Invoice) (hfp : ∀ i, (fp i).id = i.id) (hd : s.deposits.find? d.id = some d)
    (hheld : .deposit d.id ∈ held) (hdeposits : t.deposits = s.deposits)
    (hinvoices : t.invoices = s.invoices) (hstore : t.store = s.store)
    (hmarks : t.depositMarks = s.depositMarks ++ markFor d.id (f d).status)
    (hsame : SameRequest d (f d)) (hlegal : canTransition d.status (f d).status = true)
    (hnot : (f d).status ≠ .approved)
    (hcount : (f d).rejectionCount = d.rejectionCount + if (f d).status = .rejected then 1 else 0)
    (hinTime : (f d).status = .receiptUploaded → d.rejectionCount < MAX_REJECTIONS)
    (hp : p = none ∨ p = d.proformaInvoiceId) (hfresh : ∀ i, (fp i).status ≠ .consumed)
    (hs' : s' = writeProforma p fp hfp (t.setDeposits (t.deposits.update d.id f hf))) :
    depositDiscipline.guar held s s' := by
  obtain ⟨helse, hstore', hhistory⟩ :=
    writeProforma_else p fp hfp (t.setDeposits (t.deposits.update d.id f hf))
  rw [← hs'] at helse hstore' hhistory
  have hstore' : s'.store = s.store := hstore'.trans hstore
  have hbooks : s'.books = s.books := congrArg Db.books hstore'
  refine guar_taken ⟨hbooks ▸ .refl _, fun k w hw => ⟨w, hstore' ▸ hw, rfl⟩⟩ (by rw [hstore'])
    (show Taken d (f d) s s' from ⟨hd, ⟨f, hf, ?_, rfl⟩, hsame, hlegal, hcount, hinTime, ?_, ?_, ?_,
      fun q i hq hi => ?_⟩) hheld
  · rw [helse, OfficeDb.setDeposits_deposits, hdeposits]
  · rw [← hmarks, OfficeDb.depositMarks, hhistory]
    rfl
  · rw [if_neg hnot]
    refine ⟨fun k => ?_, fun n => ?_⟩
    · rw [OfficeDb.walletRial, hstore', OfficeDb.walletRial]
    · rw [OfficeDb.depositEntries, hbooks, OfficeDb.depositEntries]
  · rw [hs']
    exact proformas_written hp hinvoices
  · rw [if_neg hnot]
    intro hconsumed
    rw [hs', find?_writeProforma] at hi
    obtain ⟨i₀, hi₀, rfl⟩ := Option.map_eq_some_iff.mp hi
    refine ⟨i₀, hinvoices ▸ hi₀, ?_⟩
    split at hconsumed
    · exact absurd hconsumed (hfresh i₀)
    · exact hconsumed

/-! ## Opening a request -/

theorem within_nextNumber (cal : Calendar) (label : String) :
    (OfficeStmt.nextNumber cal label).Within Aside :=
  OfficeStmt.within_nextNumber (fun _ _ => ⟨rfl, rfl, rfl, rfl, rfl, rfl⟩) cal label

theorem within_generate (body : ℕ → String) (attempts : ℕ) :
    (DepositTrackingService.generate body attempts).Within Aside := by
  induction attempts with
  | zero => exact Block.within_fail
  | succ attempts ih =>
    refine Block.within_bind Block.within_get fun s => ?_
    exact Block.within_ite ih Block.within_pure

theorem wallet_of_walletOf {userId : ℕ} {w : Wallet} (h : s.store.walletOf userId = some w) :
    s.store.wallets.find? w.id = some w ∧ w.userId = userId :=
  ⟨Table.find?_of_mem (List.mem_of_find?_eq_some h), by simpa using List.find?_some h⟩

/-- The commit of a request that is opened. -/
theorem guar_opened {r : DepositRequest} (hnew : s.deposits.find? r.id = none)
    (hheld : .store (.own r.id) ∈ held) (haside : Aside s t)
    (hpending : r.status = .pendingPayment) (hcount : r.rejectionCount = 0)
    (hproforma : r.proformaInvoiceId = none)
    (howned : ∃ w, s.store.wallets.find? r.walletId = some w ∧ w.userId = r.userId) :
    depositDiscipline.guar held s (t.setDeposits (t.deposits.insert r)) := by
  have hopened : Opened r s (t.setDeposits (t.deposits.insert r)) := by
    refine ⟨hnew, congrArg (Table.insert · r) haside.deposits, hpending, hcount, ?_, haside.marks,
      ⟨haside.unpaid.rial, haside.unpaid.entries⟩, haside.proformasKept none, ?_⟩
    · obtain ⟨w, hw, huser⟩ := howned
      exact ⟨w, haside.wallets ▸ hw, huser⟩
    · intro p hp
      rw [hproforma] at hp
      cases hp
  refine ⟨⟨⟨haside.accounts.chart, haside.accounts.owners⟩, haside.supply.ge, .opened r hopened⟩,
    fun x hx => ?_⟩
  show depositFrame x s _
  unfold depositFrame
  split
  · intro d₁ hd₁
    rw [hopened.find?, if_neg, hd₁]
    rintro rfl
    rw [hnew] at hd₁
    cases hd₁
  · rintro ⟨hdrawn, hnone⟩
    refine ⟨hdrawn.trans_le haside.supply.ge, ?_⟩
    rw [hopened.find?, if_neg, hnone]
    rintro rfl
    exact hx hheld
  · trivial

theorem wp_createDeposit {trackingId : String} {key : Option String} {mk : ℕ → DepositRequest}
    (hkey : ∀ n, (mk n).id = n) (hg : ∀ t, Aside t (g t))
    (hpending : ∀ n, (mk n).status = .pendingPayment) (hcount : ∀ n, (mk n).rejectionCount = 0)
    (hproforma : ∀ n, (mk n).proformaInvoiceId = none)
    (howned : ∀ n, ∃ w, s.store.wallets.find? (mk n).walletId = some w ∧ w.userId = (mk n).userId) :
    (createDeposit trackingId key mk).wp depositDiscipline held g (fun _ held g s => ∀ s',
      depositDiscipline.rely held s s' → depositDiscipline.guar held s' (g s')) s := by
  rw [createDeposit, Block.wp_bind]
  refine Block.wp_lockAll fun s₁ h₁ => ?_
  simp only [Block.wp_bind, Block.wp_get, Block.wp_check]
  intro s₂ h₂ _
  refine OfficeDb.depositRows.wp_create_next fun s₃ s₄ h₃ h₄ hnone s₅ h₅ => ?_
  have hnone : (g s₄).deposits.find? s₃.store.nextId = none := hnone
  rw [(hg s₄).deposits] at hnone
  have hdrawn : s₃.store.nextId < s₄.store.nextId :=
    (Nat.lt_succ_self _).trans_le (kept_rely h₄).supply
  have hheld : OfficeRow.store (.own s₃.store.nextId) ∈ OfficeRow.store (.own s₃.store.nextId) ::
      ((OfficeRow.depositTracking trackingId :: key.toList.map .depositKey).reverse ++ held) :=
    List.mem_cons_self ..
  have hnew := absent_rely h₅ hheld hdrawn hnone
  rw [← hkey s₃.store.nextId] at hnew
  refine guar_opened hnew (hkey s₃.store.nextId ▸ hheld) (hg s₅) (hpending _) (hcount _)
    (hproforma _) ?_
  obtain ⟨w, hw, huser⟩ := howned s₃.store.nextId
  have hbump : Accounts s₃ (Supply.bump s₃) := ⟨.refl _, fun _ w hw => ⟨w, hw, rfl⟩⟩
  have haccounts := ((((kept_rely h₁).accounts.trans (kept_rely h₂).accounts).trans
    (kept_rely h₃).accounts).trans hbump).trans
      ((kept_rely h₄).accounts.trans (kept_rely h₅).accounts)
  obtain ⟨w', hw', huser'⟩ := haccounts.owners _ w hw
  exact ⟨w', hw', huser'.trans huser⟩

theorem safe_getOne {userId depositId : ℕ} :
    (getOne userId depositId).Safe depositDiscipline (fun _ _ => True) s :=
  Call.safe_get_bind (fun _ _ _ => trivial) fun _ _ _ _ =>
    Call.safe_getOrFail (fun _ _ _ _ => trivial) fun _ _ => trivial

theorem safe_prepareManual {userId sourceCardId : ℕ} {method : ManualDepositMethod}
    {amountRial : Option ℤ} :
    (prepareManual userId method sourceCardId amountRial).Safe depositDiscipline
      (fun _ _ => True) s := by
  unfold prepareManual
  refine Call.safe_get_bind (fun _ _ _ => trivial) fun t₁ s₁ _ _ => ?_
  refine Call.safe_check_bind (fun _ _ => trivial) fun _ => ?_
  refine Call.safe_ofExcept_bind (fun _ _ _ => trivial) fun _ _ => ?_
  refine Call.safe_get_bind (fun _ _ _ => trivial) fun t₂ s₂ _ _ => ?_
  refine Call.safe_getOrFail_bind (fun _ _ => trivial) fun bankAccount _ => ?_
  refine Call.safe_check_bind (fun _ _ => trivial) fun _ => ?_
  refine Call.safe_get_bind (fun _ _ _ => trivial) fun t₃ s₃ _ _ => ?_
  refine Call.safe_ofExcept_bind (fun _ _ _ => trivial) fun destination _ => ?_
  refine Call.safe_get_bind (fun _ _ _ => trivial) fun t₄ s₄ _ _ => ?_
  refine Call.safe_ofExcept_bind (fun _ _ _ => trivial) fun _ _ => ?_
  exact Call.safe_pure fun _ _ => trivial

theorem wp_insertManual {cal : Calendar} {userId : ℕ} {dto : ManualDepositDto} {key : Option String}
    {expiresAt : ℤ} {body : ℕ → String} :
    (insertManual cal userId dto key expiresAt body).wp depositDiscipline [] id
      (fun _ held g s => ∀ s', depositDiscipline.rely held s s' →
        depositDiscipline.guar held s' (g s')) s := by
  simp only [insertManual, Block.wp_bind, Block.wp_get, Block.wp_getOrFail]
  intro s₁ _ wallet hwallet
  obtain ⟨hfind, huser⟩ := wallet_of_walletOf hwallet
  refine wp_aside (within_nextNumber cal "DEP") fun requestNumber held₂ g₂ s₂ _ h₂ hg₂ => ?_
  refine wp_aside (within_generate body 5) fun trackingId held₃ g₃ s₃ hsub₃ h₃ hg₃ s₄ h₄ => ?_
  have haccounts := ((kept_rely h₂).accounts.trans (kept_rely h₃).accounts).trans
    (kept_rely h₄).accounts
  obtain ⟨w, hw, hwuser⟩ := haccounts.owners _ wallet hfind
  exact wp_createDeposit (fun _ => rfl) (fun t => (hg₂ t).trans (hg₃ _)) (fun _ => rfl) (fun _ => rfl)
    (fun _ => rfl) fun _ => ⟨w, hw, hwuser.trans huser⟩

theorem safe_createManual {cal : Calendar} {userId : ℕ} {dto : ManualDepositDto}
    {key : Option String} {body : ℕ → String} :
    (createManual cal userId dto key body).Safe depositDiscipline (fun _ _ => True) s := by
  unfold createManual
  refine Call.safe_check_bind (fun _ _ => trivial) fun _ => ?_
  refine Call.safe_get_bind (fun _ _ _ => trivial) fun t₁ s₁ _ _ => ?_
  split
  · exact Call.safe_check_bind (fun _ _ => trivial) fun _ => safe_getOne
  refine Call.safe_bind (Call.safe_mono (fun r s₂ _ => ?_) safe_prepareManual)
  cases r with
  | error e => trivial
  | ok prepared =>
    refine Call.safe_get_bind (fun _ _ _ => trivial) fun t₃ s₃ _ _ => ?_
    refine Call.safe_bind (Call.safe_attempt (Call.safe_transaction (fun s₄ _ => ?_)
      fun e s₅ _ => ?_))
    · refine Block.wp_mono (fun n held g s₅ hguar s₆ h₆ => ⟨hguar s₆ h₆, fun s₇ _ => ?_⟩)
        wp_insertManual
      exact safe_getOne
    · refine Call.safe_get_bind (fun _ _ _ => trivial) fun t₆ s₆ _ _ => ?_
      split
      · exact safe_getOne
      · exact Call.safe_fail fun _ _ => trivial

/-! ## Receipts, cancelling and reviewing -/

theorem wp_storeReceipt {depositId : ℕ} {stored : StoredFile} {note : Option String} :
    (storeReceipt depositId stored note).wp depositDiscipline [] id (fun _ held g s => ∀ s',
      depositDiscipline.rely held s s' → depositDiscipline.guar held s' (g s')) s := by
  simp only [storeReceipt, Block.wp_bind, Block.wp_lock, Block.wp_get, Block.wp_getOrFail,
    Block.wp_ofExcept, Block.wp_mark]
  intro s₁ _ s₂ _ d hd _ hassert s₃ h₃ hcond
  have hid : d.id = depositId := Table.key_of_find? hd
  subst hid
  have hheld : OfficeRow.deposit d.id ∈ [OfficeRow.deposit d.id] := List.mem_singleton_self _
  have hd₃ := deposit_rely h₃ hheld hd
  have hcount : d.rejectionCount < MAX_REJECTIONS := hcond d hd₃
  refine OfficeDb.depositReceiptRows.wp_create quiet_bump fun n s₄ h₄ _ => ?_
  refine OfficeDb.depositRows.wp_update fun s₅ _ h₅ _ s₆ h₆ => ?_
  have hd₅ := deposit_rely h₅ (List.mem_cons_of_mem _ hheld) (deposit_rely h₄ hheld hd₃)
  have hd₆ := deposit_rely h₆ (List.mem_cons_of_mem _ (List.mem_cons_of_mem _ hheld)) hd₅
  refine guar_moved (t := OfficeDb.depositReceiptRows.set ((OfficeDb.depositReceiptRows.get s₆).insert
      ⟨n, d.id, stored, (note.map storedNote).filter (· != "")⟩) (s₆.note (.uploads d.id)))
    (fun d => { d with status := .receiptUploaded }) (fun _ => rfl) none
    (fun i => { i with status := .cancelled }) (fun _ => rfl) hd₆ (List.mem_cons_self ..)
    rfl rfl rfl ?_
    ⟨rfl, rfl, rfl, rfl, rfl⟩ (canTransition_of_assert hassert) (by simp) (add_zero _).symm
    (fun _ => hcount) (.inl rfl) (by simp) rfl
  exact depositMarks_note (.uploads d.id) s₆

theorem safe_uploadReceipt {userId depositId : ℕ} {uploaded : Except ApiError StoredFile}
    {note : Option String} : (uploadReceipt userId depositId uploaded note).Safe depositDiscipline
      (fun _ _ => True) s := by
  unfold uploadReceipt
  refine Call.safe_get_bind (fun _ _ _ => trivial) fun t₁ s₁ _ _ => ?_
  refine Call.safe_getOrFail_bind (fun _ _ => trivial) fun deposit _ => ?_
  refine Call.safe_ofExcept_bind (fun _ _ _ => trivial) fun _ _ => ?_
  refine Call.safe_check_bind (fun _ _ => trivial) fun _ => ?_
  refine Call.safe_ofExcept_bind (fun _ _ _ => trivial) fun stored _ => ?_
  refine Call.safe_get_bind (fun _ _ _ => trivial) fun t₂ s₂ _ _ => ?_
  refine Call.safe_bind (Call.safe_transaction (fun s₃ _ => ?_) fun _ _ _ => trivial)
  refine Block.wp_mono (fun _ held g s₄ hguar s₅ h₅ => ⟨hguar s₅ h₅, fun s₆ _ => ?_⟩) wp_storeReceipt
  exact Call.safe_pure fun _ _ => trivial

theorem safe_cancel {userId depositId : ℕ} :
    (cancel userId depositId).Safe depositDiscipline (fun _ _ => True) s := by
  refine Call.safe_transaction (fun s₀ _ => ?_) fun _ _ _ => trivial
  simp only [Block.wp_bind, Block.wp_lock, Block.wp_get, Block.wp_getOrFail]
  intro s₁ _ s₂ _ d hd
  obtain ⟨hd, -⟩ := Option.filter_eq_some_iff.mp hd
  have hid : d.id = depositId := Table.key_of_find? hd
  subst hid
  refine Block.wp_ite.mpr ⟨fun _ s' _ => ⟨guar_refl s', fun _ _ => trivial⟩, fun _ => ?_⟩
  simp only [Block.wp_bind, Block.wp_ofExcept, Block.wp_get]
  intro _ hassert
  have hheld : OfficeRow.deposit d.id ∈ [OfficeRow.deposit d.id] := List.mem_singleton_self _
  refine OfficeDb.depositRows.wp_update fun s₃ _ h₃ _ s₄ h₄ => ?_
  refine wp_updateProforma fun held₅ s₅ hsub₅ h₅ s₆ h₆ => ⟨?_, fun _ _ => trivial⟩
  have hmem := hsub₅ _ (List.mem_cons_of_mem _ hheld)
  have hd₄ := deposit_rely h₄ (List.mem_cons_of_mem _ hheld) (deposit_rely h₃ hheld hd)
  have hd₆ := deposit_rely h₆ hmem (deposit_rely h₅ (List.mem_cons_of_mem _ hheld) hd₄)
  exact guar_moved (fun d => { d with status := .cancelled }) (fun _ => rfl) d.proformaInvoiceId
    (fun i =>
      { i with
        status := .cancelled
        cancelledAt := some s₄.now
        cancelReason := some "لغو درخواست واریز توسط کاربر" })
    (fun _ => rfl) hd₆ hmem rfl rfl rfl (List.append_nil _).symm ⟨rfl, rfl, rfl, rfl, rfl⟩
    (canTransition_of_assert hassert) (by simp) (add_zero _).symm (by simp) (.inr rfl) (by simp) rfl

theorem wp_lockDeposit {depositId : ℕ}
    {post : DepositRequest → List OfficeRow → (OfficeDb → OfficeDb) → OfficeDb → Prop}
    (h : ∀ d s', d.id = depositId → s'.deposits.find? d.id = some d →
      post d (.deposit d.id :: held) id s') :
    (DepositAdminService.lockDeposit depositId).wp depositDiscipline held id post s := by
  simp only [DepositAdminService.lockDeposit, Block.wp_bind, Block.wp_lock, Block.wp_get,
    Block.wp_getOrFail]
  intro s₁ _ s₂ _ d hd
  have hid : d.id = depositId := Table.key_of_find? hd
  subst hid
  exact h d s₂ rfl hd

theorem safe_startReview {adminUserId depositId : ℕ} :
    (DepositAdminService.startReview adminUserId depositId).Safe depositDiscipline
      (fun _ _ => True) s := by
  refine Call.safe_transaction (fun s₀ _ => ?_) fun _ _ _ => trivial
  rw [Block.wp_bind]
  refine wp_lockDeposit fun d s₁ hid hd => ?_
  subst hid
  refine Block.wp_ite.mpr ⟨fun _ s' _ => ⟨guar_refl s', fun _ _ => trivial⟩, fun _ => ?_⟩
  simp only [Block.wp_bind, Block.wp_ofExcept, Block.wp_get]
  intro _ hassert s₂ h₂
  have hheld : OfficeRow.deposit d.id ∈ [OfficeRow.deposit d.id] := List.mem_singleton_self _
  refine OfficeDb.depositRows.wp_update fun s₃ _ h₃ _ s₄ h₄ => ⟨?_, fun _ _ => trivial⟩
  have hd₃ := deposit_rely h₃ hheld (deposit_rely h₂ hheld hd)
  have hd₄ := deposit_rely h₄ (List.mem_cons_of_mem _ hheld) hd₃
  exact guar_moved (fun d =>
      { d with
        status := .underReview
        reviewStartedAt := some s₂.now
        reviewedById := some adminUserId })
    (fun _ => rfl) none (fun i => { i with status := .cancelled }) (fun _ => rfl) hd₄
    (List.mem_cons_self ..) rfl rfl rfl (List.append_nil _).symm ⟨rfl, rfl, rfl, rfl, rfl⟩
    (canTransition_of_assert hassert) (by simp) (add_zero _).symm (by simp) (.inl rfl) (by simp) rfl

theorem safe_reject {adminUserId depositId : ℕ} {reason : String} :
    (DepositAdminService.reject adminUserId depositId reason).Safe depositDiscipline
      (fun _ _ => True) s := by
  unfold DepositAdminService.reject
  refine Call.safe_check_bind (fun _ _ => trivial) fun _ => ?_
  refine Call.safe_transaction (fun s₀ _ => ?_) fun _ _ _ => trivial
  simp only [DepositAdminService.rejectDeposit, Block.wp_bind, Block.wp_lock]
  intro s₁ _
  refine wp_lockDeposit fun d s₂ hid hd => ?_
  subst hid
  refine Block.wp_ite.mpr ⟨fun _ s' _ => ⟨guar_refl s', fun _ _ => trivial⟩, fun _ => ?_⟩
  simp only [Block.wp_bind, Block.wp_ofExcept, Block.wp_mark, Block.wp_get]
  intro _ hassert s₃ h₃ _ s₄ h₄
  have hheld : OfficeRow.deposit d.id ∈ OfficeRow.deposit d.id :: [.depositAdvisory d.id] :=
    List.mem_cons_self ..
  refine OfficeDb.depositRows.wp_update fun s₅ _ h₅ _ => ?_
  refine wp_updateProforma fun held₆ s₆ hsub₆ h₆ s₇ h₇ => ⟨?_, fun _ _ => trivial⟩
  have hmem := hsub₆ _ (List.mem_cons_of_mem _ hheld)
  have hd₅ := deposit_rely h₅ hheld (deposit_rely h₄ hheld (deposit_rely h₃ hheld hd))
  have hd₇ := deposit_rely h₇ hmem (deposit_rely h₆ (List.mem_cons_of_mem _ hheld) hd₅)
  refine guar_moved (t := s₇.note (.rejects d.id)) (fun r =>
      { r with
        status := .rejected
        rejectionReason := some (AccountingService.trim reason)
        rejectionCount := d.rejectionCount + 1
        reviewedById := some adminUserId
        reviewedAt := some s₄.now })
    (fun _ => rfl) (if MAX_REJECTIONS ≤ d.rejectionCount + 1 then d.proformaInvoiceId else none)
    (fun i =>
      { i with
        status := .cancelled
        cancelledAt := some s₄.now
        cancelReason := some "رد مکرر درخواست واریز" })
    (fun _ => rfl) hd₇ hmem rfl rfl rfl ?_ ⟨rfl, rfl, rfl, rfl, rfl⟩ (canTransition_of_assert hassert)
    (by simp) rfl (by simp) ?_ (by simp) rfl
  · exact depositMarks_note (.rejects d.id) s₇
  · split
    · exact .inr rfl
    · exact .inl rfl

theorem safe_requestNewReceipt {adminUserId depositId : ℕ} {note : Option String} :
    (DepositAdminService.requestNewReceipt adminUserId depositId note).Safe depositDiscipline
      (fun _ _ => True) s := by
  refine Call.safe_transaction (fun s₀ _ => ?_) fun _ _ _ => trivial
  rw [Block.wp_bind]
  refine wp_lockDeposit fun d s₁ _ _ => ?_
  simp only [Block.wp_bind, Block.wp_ofExcept, Block.wp_mark]
  intro _ _ s₂ _ hask
  exact hask.elim

/-! ## Expiry -/

/-- A request that was found stale is the same request now. -/
def SeenBefore (d : DepositRequest) (s : OfficeDb) : Prop :=
  ∃ r, s.deposits.find? d.id = some r ∧ SameRequest d r

theorem seenBefore_rely (hd : SeenBefore d s) (h : depositDiscipline.rely held s s') :
    SeenBefore d s' := by
  obtain ⟨r, hr, hsame⟩ := hd
  obtain ⟨r', hr', hsame'⟩ := (kept_rely h).requests _ r hr
  exact ⟨r', hr', hsame.trans hsame'⟩

theorem wp_expire (hseen : SeenBefore d s) :
    (DepositExpiryCron.expire d).wp depositDiscipline [] id (fun _ held g s => ∀ s',
      depositDiscipline.rely held s s' → depositDiscipline.guar held s' (g s')) s := by
  simp only [DepositExpiryCron.expire, Block.wp_bind, Block.wp_lock, Block.wp_get]
  intro s₁ h₁ s₂ h₂
  refine Block.wp_ite.mpr ⟨fun _ s' _ => guar_refl s', fun hstatus => ?_⟩
  obtain ⟨r, hr, hsame⟩ := seenBefore_rely (seenBefore_rely hseen h₁) h₂
  rw [not_not, id_eq, hr, Option.map_some, Option.some.injEq] at hstatus
  rw [← hsame.id] at hr
  simp only [Block.wp_bind]
  have hheld : OfficeRow.deposit r.id ∈ [OfficeRow.deposit d.id] := by
    rw [hsame.id]
    exact List.mem_singleton_self _
  refine OfficeDb.depositRows.wp_update fun s₃ _ h₃ _ => ?_
  refine wp_updateProforma fun held₄ s₄ hsub₄ h₄ s₅ h₅ => ?_
  have hmem := hsub₄ _ (List.mem_cons_of_mem _ hheld)
  have hr₄ := deposit_rely h₄ (List.mem_cons_of_mem _ hheld) (deposit_rely h₃ hheld hr)
  have hr₅ := deposit_rely h₅ hmem hr₄
  refine guar_moved (d := r) (t := s₅) (fun r => { r with status := .expired }) (fun _ => rfl)
    d.proformaInvoiceId (fun i =>
      { i with status := .expired, cancelReason := some "گذشت مهلت اعتبار پیش‌فاکتور" })
    (fun _ => rfl) hr₅ hmem rfl rfl rfl (List.append_nil _).symm ⟨rfl, rfl, rfl, rfl, rfl⟩ ?_
    (by simp) (add_zero _).symm (by simp) (.inr hsame.proforma.symm) (by simp) ?_
  · rw [hstatus]
    rfl
  · rw [hsame.id]
    rfl

theorem safe_expireStaleRequests :
    DepositExpiryCron.expireStaleRequests.Safe depositDiscipline (fun _ _ => True) s := by
  refine Call.safe_get_bind (fun _ _ _ => trivial) fun t s₁ _ h₁ => ?_
  refine Call.safe_mono (fun _ _ _ => trivial) (Call.safe_forEach
    (P := fun s => ∀ d ∈ DepositExpiryCron.stale t, SeenBefore d s) ?_ ?_ ?_)
  · exact fun s s' hs h d hd => seenBefore_rely (hs d hd) h
  · intro d hd s₂ hs₂
    refine Call.safe_bind (Call.safe_attempt (Call.safe_transaction (fun s₃ h₃ => ?_)
      fun e s₃ h₃ => ?_))
    · have hs₃ : ∀ d ∈ DepositExpiryCron.stale t, SeenBefore d s₃ := fun d hd =>
        seenBefore_rely (hs₂ d hd) h₃
      have hwp := Block.wp_and_stable (P := fun s => ∀ d ∈ DepositExpiryCron.stale t, SeenBefore d s)
        (fun _ _ _ hs h d hd => seenBefore_rely (hs d hd) h) (fun _ hs => hs) hs₃
        (wp_expire (hs₃ d hd))
      refine Block.wp_mono (fun _ held g s₄ ⟨hs₄, hguar⟩ s₅ h₅ => ⟨hguar s₅ h₅, fun s₆ h₆ => ?_⟩) hwp
      refine Call.safe_pure fun s₇ h₇ d hd => ?_
      have hstep : depositDiscipline.rely [] s₅ (g s₅) := Discipline.rely_step (hguar s₅ h₅).1 nofun
      have hseen := seenBefore_rely (seenBefore_rely (hs₄ d hd) h₅) hstep
      exact seenBefore_rely (seenBefore_rely hseen h₆) h₇
    · exact Call.safe_pure fun s₄ h₄ d hd => seenBefore_rely (seenBefore_rely (hs₂ d hd) h₃) h₄
  · intro d hd
    have hmem := (List.mem_filter.mp (List.mem_of_mem_take hd)).1
    exact seenBefore_rely ⟨d, Table.find?_of_mem hmem, .refl d⟩ h₁

/-! ## Paying in -/

/-- The journals of the requests once a journal for one was posted. -/
theorem depositEntries_posting {now : ℤ} {params : JournalInput} {posted : List PostedLine} {id : ℕ}
    (htype : params.referenceType = some "DEPOSIT") (hid : params.referenceId = some id) (n : ℕ) :
    (OfficeStmt.posting now params posted (fun _ s => s) t).depositEntries n =
      t.depositEntries n ++ if n = id then [posted.map ledgerEntry] else [] := by
  have hrows : (OfficeStmt.posting now params posted (fun _ s => s) t).books.journals.rows =
      t.books.journals.rows ++ [{
        id := t.books.journals.next
        description := params.description
        totalRial := Numeric.toScale rialScale params.totalRial
        totalGrams := Numeric.toScale gramScale params.totalGrams
        source := params.source
        referenceType := params.referenceType
        referenceId := params.referenceId
        createdByAdminId := params.createdByAdminId
        reversalOfId := params.reversalOfId
        transactionId := params.transactionId
        entryDate := (some (params.entryDate.getD now)).getD t.books.now
        referenceNumber := t.books.nextReference
        permanentNumber := none
        fiscalYearId := none
        finalizedAt := none
        ledgerEntries := posted.map ledgerEntry }] := rfl
  rw [OfficeDb.depositEntries, hrows, List.filter_append, List.map_append, OfficeDb.depositEntries]
  by_cases hn : n = id
  · simp [htype, hid, hn]
  · simp [htype, hid, hn, Ne.symm hn]

/-- The entries of an approval, whatever books they reach. -/
theorem paysIn_of_posting {b b' : Books} {cashCode : String} {adminUserId transactionId : ℕ}
    {posted : List PostedLine} (hcash : cashCode.startsWith CASH_ROOT_CODE = true)
    (h : Posting b (DepositAdminService.approvalJournal d cashCode adminUserId transactionId) posted)
    (hkept : ChartKept b b') : PaysIn b' d (posted.map ledgerEntry) := by
  obtain ⟨redirect, hredirect, hlines⟩ := redirectedLines_eq_map b
    (DepositAdminService.approvalJournal d cashCode adminUserId transactionId)
  have h2010 : redirect "2010" = "2010" := by
    rcases hredirect "2010" with h | ⟨h, -⟩
    · exact h
    · exact absurd h (by decide)
  refine ⟨redirect cashCode, ?_, ?_⟩
  · rcases hredirect cashCode with h | ⟨-, h⟩
    · rw [h]
      exact hcash
    · exact h
  · have hzero : Numeric.toScale gramScale 0 = 0 := by
      have h := Numeric.toScale_ofScale gramScale 0
      rwa [Numeric.ofScale_zero] at h
    have hrial : Numeric.toScale rialScale (rials d.amountRial) = d.amountRial :=
      Numeric.toScale_ofScale _ _
    have hjournal : (DepositAdminService.approvalJournal d cashCode adminUserId transactionId).lines =
        [{ accountCode := cashCode, side := .debit, amountRial := rials d.amountRial },
         { accountCode := "2010", side := .credit, amountRial := rials d.amountRial }] := rfl
    rw [entries_posted h hkept, hlines, hjournal]
    simp only [List.map_cons, List.map_nil]
    rw [h2010, hzero, hrial]

/-- The wallet is credited, and nothing else changes that concerns the requests. -/
structure Credited (d : DepositRequest) (t t' : OfficeDb) : Prop where
  deposits : t'.deposits = t.deposits
  invoices : t'.invoices = t.invoices
  books : t'.books = t.books
  supply : t'.store.nextId = t.store.nextId
  marks : t'.depositMarks = t.depositMarks
  owners : ∀ k w, t.store.wallets.find? k = some w →
    ∃ w', t'.store.wallets.find? k = some w' ∧ w'.userId = w.userId
  rial : ∀ k, t'.walletRial k = t.walletRial k + if d.walletId = k then d.amountRial else 0

theorem credited_update {w : Wallet} {hf : ∀ w : Wallet,
      { w with rialBalance := w.rialBalance + d.amountRial }.id = w.id}
    (hw : t.store.wallets.find? d.walletId = some w) :
    Credited d t (t.setStore (t.store.setWallets (t.store.wallets.update d.walletId
      (fun w => { w with rialBalance := w.rialBalance + d.amountRial }) hf))) := by
  refine ⟨rfl, rfl, rfl, rfl, rfl, fun k w' hw' => ?_, fun k => ?_⟩
  · rw [OfficeDb.setStore_store, Db.setWallets_wallets]
    by_cases hk : k = d.walletId
    · subst hk
      rw [Table.find?_update_self, hw', Option.map_some]
      exact ⟨_, rfl, rfl⟩
    · rw [Table.find?_update_of_ne _ hk]
      exact ⟨w', hw', rfl⟩
  · rw [OfficeDb.walletRial, OfficeDb.walletRial, OfficeDb.setStore_store, Db.setWallets_wallets]
    by_cases hk : d.walletId = k
    · subst hk
      rw [Table.find?_update_self, hw, if_pos rfl]
      rfl
    · rw [Table.find?_update_of_ne _ (Ne.symm hk), if_neg hk, add_zero]

theorem Credited.aside (h : Credited d s t) (h' : Aside t u) : Credited d s u where
  deposits := h'.deposits.trans h.deposits
  invoices := h'.invoices.trans h.invoices
  books := h'.books.trans h.books
  supply := h'.supply.trans h.supply
  marks := h'.marks.trans h.marks
  owners k w hw := h'.wallets ▸ h.owners k w hw
  rial k := by rw [← h.rial, OfficeDb.walletRial, h'.wallets, OfficeDb.walletRial]

/-- The wallet is credited and the journal posted. -/
structure Banked (d : DepositRequest) (t t' : OfficeDb) : Prop where
  deposits : t'.deposits = t.deposits
  invoices : t'.invoices = t.invoices
  supply : t'.store.nextId = t.store.nextId
  marks : t'.depositMarks = t.depositMarks
  accounts : Accounts t t'
  paid : PaidIn d t t'

theorem wp_payIn {adminUserId : ℕ} {cashAccountCode : Option String}
    {post : ℕ → List OfficeRow → (OfficeDb → OfficeDb) → OfficeDb → Prop}
    (h : ∀ n held' g' s', (∀ r ∈ held, r ∈ held') → depositDiscipline.rely held s s' →
      (∀ t, Accounts s' t → Banked d t (g' t)) → post n held' g' s') :
    (DepositAdminService.payIn d adminUserId cashAccountCode).wp depositDiscipline held id post s := by
  simp only [DepositAdminService.payIn, DepositAdminService.creditWallet, OfficeStmt.onStore_bind,
    Block.wp_bind, Block.wp_get, Block.wp_check, Block.wp_lock, Block.wp_getOrFail, Block.wp_ofExcept]
  intro s₁ h₁ _ s₂ h₂ s₃ h₃ wallet hwallet s₄ h₄ cashCode hcash
  have hid : wallet.id = d.walletId := Table.key_of_find? hwallet
  rw [hid]
  have hlocked : ∀ r ∈ held, r ∈ OfficeRow.store (.wallet d.walletId) :: held := fun r hr =>
    List.mem_cons_of_mem _ hr
  refine OfficeStmt.wp_updateWallet fun s₅ _ h₅ _ _ => ?_
  rw [OfficeStmt.onStore_get]
  simp only [Block.wp_bind, Block.wp_get, Block.wp_pure]
  intro s₆ h₆
  refine wp_aside (OfficeStmt.within_onStore (Q := fun s t => t.books = s.books ∧
    t.wallets = s.wallets ∧ t.nextId = s.nextId) (fun _ _ hq => ⟨rfl, rfl, hq.2.1, hq.1, hq.2.2, rfl⟩)
      (Stmt.within_create (fun _ _ => ⟨rfl, rfl, rfl⟩) _)) fun n held₇ g₇ s₇ hsub₇ h₇ hg₇ => ?_
  refine OfficeStmt.wp_postJournal fun s₈ posted s₉ h₈ hposting h₉ => ?_
  have hcredited : ∀ t w, t.store.wallets.find? d.walletId = some w → Credited d t
      ((g₇ ∘ (fun t => t.setStore (t.store.setWallets (t.store.wallets.update d.walletId (fun w =>
        { w with rialBalance := w.rialBalance + d.amountRial }) fun _ => rfl))) ∘ id) t) :=
    fun t w hw => (credited_update hw).aside (hg₇ _)
  have hsub : ∀ r ∈ held, r ∈ held₇ := fun r hr => hsub₇ r (List.mem_cons_of_mem _ (hlocked r hr))
  have h₂₅ : depositDiscipline.rely held s₂ s₅ :=
    Discipline.rely_trans (Discipline.rely_mono hlocked h₃)
      (Discipline.rely_trans (Discipline.rely_mono hlocked h₄) (Discipline.rely_mono hlocked h₅))
  have hcons : ∀ r ∈ held, r ∈ OfficeRow.store (.wallet d.walletId) ::
      OfficeRow.store (.wallet d.walletId) :: held := fun r hr => List.mem_cons_of_mem _ (hlocked r hr)
  have h₅₈ : depositDiscipline.rely held s₅ s₈ :=
    Discipline.rely_trans (Discipline.rely_mono hcons h₆)
      (Discipline.rely_trans (Discipline.rely_mono hcons h₇) (Discipline.rely_mono hsub h₈))
  have h₃₈ : Accounts s₃ s₈ := ((kept_rely h₄).accounts.trans (kept_rely h₅).accounts).trans
    (kept_rely h₅₈).accounts
  obtain ⟨w₈, hw₈, -⟩ := h₃₈.owners _ wallet hwallet
  rw [(hcredited s₈ w₈ hw₈).books] at hposting
  refine h n _ _ s₉ (fun r hr => List.mem_append_right _ (hsub r hr)) ?_ fun t ht => ?_
  · refine Discipline.rely_trans h₁ (Discipline.rely_trans h₂ ?_)
    exact Discipline.rely_trans h₂₅ (Discipline.rely_trans h₅₈ (Discipline.rely_mono hsub h₉))
  · have hchart : ChartKept s₈.books t.books := (chart_rely h₉).trans ht.chart
    obtain ⟨w₉, hw₉, -⟩ := ((kept_rely h₉).accounts.trans ht).owners _ w₈ hw₈
    have hc := hcredited t w₉ hw₉
    have hcodes : cashCode.startsWith CASH_ROOT_CODE = true := startsWith_of_resolved hcash
    refine ⟨hc.deposits, hc.invoices, hc.supply, hc.marks, ⟨?_, hc.owners⟩, hc.rial,
      posted.map ledgerEntry, ?_, fun k => ?_⟩
    · exact hc.books ▸ chartKept_write _ _ _
    · refine (paysIn_of_posting hcodes hposting hchart).kept ?_
      exact hc.books ▸ chartKept_write _ _ _
    · rw [Function.comp_apply, depositEntries_posting rfl rfl, OfficeDb.depositEntries, hc.books,
        OfficeDb.depositEntries]

/-- The commit of an approval. -/
theorem guar_approved {f : DepositRequest → DepositRequest} {hf : ∀ r, (f r).id = r.id}
    (hd : s.deposits.find? d.id = some d) (hheld : .deposit d.id ∈ held) (hbanked : Banked d s t)
    (hsame : SameRequest d (f d)) (hlegal : canTransition d.status .approved = true)
    (hstatus : (f d).status = .approved) (hcount : (f d).rejectionCount = d.rejectionCount)
    (hs' : s' = writeProforma d.proformaInvoiceId (fun i => { i with status := .consumed })
      (fun _ => rfl) (t.setDeposits (t.deposits.update d.id f hf))) :
    depositDiscipline.guar held s s' := by
  obtain ⟨helse, hstore, hhistory⟩ := writeProforma_else d.proformaInvoiceId
    (fun i => { i with status := .consumed }) (fun _ => rfl)
    (t.setDeposits (t.deposits.update d.id f hf))
  rw [← hs'] at helse hstore hhistory
  have hstore : s'.store = t.store := hstore
  have hbooks : s'.books = t.books := congrArg Db.books hstore
  refine guar_taken ⟨?_, ?_⟩ (by rw [hstore, hbanked.supply])
    (show Taken d (f d) s s' from ⟨hd, ⟨f, hf, ?_, rfl⟩, hsame, hstatus ▸ hlegal, ?_, ?_, ?_, ?_, ?_,
      fun q i hq hi => ?_⟩) hheld
  · rw [hbooks]
    exact hbanked.accounts.chart
  · rw [hstore]
    exact hbanked.accounts.owners
  · rw [helse, OfficeDb.setDeposits_deposits, hbanked.deposits]
  · rw [hcount, hstatus]
    rfl
  · rw [hstatus]
    rintro ⟨⟩
  · rw [hstatus, markFor, List.append_nil, ← hbanked.marks, OfficeDb.depositMarks, hhistory]
    · rfl
    · rintro ⟨⟩
    · rintro ⟨⟩
  · rw [if_pos hstatus]
    obtain ⟨entries, hpays, hentries⟩ := hbanked.paid.entries
    refine ⟨fun k => ?_, entries, hbooks ▸ hpays, fun n => ?_⟩
    · rw [← hbanked.paid.rial, OfficeDb.walletRial, hstore, OfficeDb.walletRial]
    · rw [← hentries, OfficeDb.depositEntries, hbooks, OfficeDb.depositEntries]
  · rw [hs']
    exact proformas_written (.inr rfl) hbanked.invoices
  · rw [if_pos hstatus]
    rw [hs', find?_writeProforma] at hi
    obtain ⟨i₀, -, rfl⟩ := Option.map_eq_some_iff.mp hi
    rw [if_pos hq]

theorem safe_approve {adminUserId depositId : ℕ} {note cashAccountCode : Option String} :
    (DepositAdminService.approve adminUserId depositId note cashAccountCode).Safe depositDiscipline
      (fun _ _ => True) s := by
  refine Call.safe_transaction (fun s₀ _ => ?_) fun _ _ _ => trivial
  simp only [Block.wp_bind, Block.wp_lock]
  intro s₁ _
  refine wp_lockDeposit fun d s₂ hid hd => ?_
  subst hid
  refine Block.wp_ite.mpr ⟨fun _ s' _ => ⟨guar_refl s', fun _ _ => trivial⟩, fun _ => ?_⟩
  simp only [Block.wp_bind, Block.wp_ofExcept]
  intro _ hassert
  have hheld : OfficeRow.deposit d.id ∈ OfficeRow.deposit d.id :: [.depositAdvisory d.id] :=
    List.mem_cons_self ..
  refine wp_payIn fun transactionId held₃ g₃ s₃ hsub₃ h₃ hg₃ => ?_
  rw [Block.wp_get]
  intro s₄ h₄
  refine OfficeDb.depositRows.wp_update fun s₅ _ h₅ _ => ?_
  refine wp_updateProforma fun held₆ s₆ hsub₆ h₆ s₇ h₇ => ⟨?_, fun _ _ => trivial⟩
  have hmem₃ := hsub₃ _ hheld
  have hmem₅ : OfficeRow.deposit d.id ∈ OfficeDb.depositRows.row d.id :: held₃ :=
    List.mem_cons_self ..
  have hmem₆ := hsub₆ _ hmem₅
  have hd₅ := deposit_rely h₅ hmem₃ (deposit_rely h₄ hmem₃ (deposit_rely h₃ hheld hd))
  have hd₇ := deposit_rely h₇ hmem₆ (deposit_rely h₆ hmem₅ hd₅)
  have haccounts := ((kept_rely h₄).accounts.trans (kept_rely h₅).accounts).trans
    ((kept_rely h₆).accounts.trans (kept_rely h₇).accounts)
  exact guar_approved (t := g₃ s₇) (f := fun r =>
      { r with
        status := .approved
        transactionId := some transactionId
        reviewedById := some adminUserId
        reviewedAt := some (g₃ s₄).now
        adminNotes := (note.map storedNote).or d.adminNotes })
    hd₇ hmem₆ (hg₃ s₇ haccounts) ⟨rfl, rfl, rfl, rfl, rfl⟩ (canTransition_of_assert hassert) rfl rfl rfl

/-! ## Every interleaving -/

/-- A request to the services. -/
inductive DepositCall where
  | createManual (userId : ℕ) (dto : ManualDepositDto) (idempotencyKey : Option String)
      (body : ℕ → String)
  | uploadReceipt (userId depositId : ℕ) (uploaded : Except ApiError StoredFile)
      (userNote : Option String)
  | cancel (userId depositId : ℕ)
  | startReview (adminUserId depositId : ℕ)
  | approve (adminUserId depositId : ℕ) (note cashAccountCode : Option String)
  | reject (adminUserId depositId : ℕ) (reason : String)
  | requestNewReceipt (adminUserId depositId : ℕ) (note : Option String)
  | expireStaleRequests

/-- Its answer. -/
inductive DepositAnswer where
  | created (d : DepositRequest)
  | uploaded (duplicateSuspected : Bool)
  | processed (reply : DepositReply)
  | expired

/-- The services. -/
def serve (cal : Calendar) : DepositCall → OfficeService DepositAnswer
  | .createManual userId dto key body => do
    pure (.created (← createManual cal userId dto key body))
  | .uploadReceipt userId depositId uploaded note => do
    pure (.uploaded (← uploadReceipt userId depositId uploaded note))
  | .cancel userId depositId => do pure (.processed (← cancel userId depositId))
  | .startReview adminUserId depositId => do
    pure (.processed (← DepositAdminService.startReview adminUserId depositId))
  | .approve adminUserId depositId note cashAccountCode => do
    pure (.processed (← DepositAdminService.approve adminUserId depositId note cashAccountCode))
  | .reject adminUserId depositId reason => do
    pure (.processed (← DepositAdminService.reject adminUserId depositId reason))
  | .requestNewReceipt adminUserId depositId note => do
    pure (.processed (← DepositAdminService.requestNewReceipt adminUserId depositId note))
  | .expireStaleRequests => do
    DepositExpiryCron.expireStaleRequests
    pure .expired

theorem safe_answer {α β : Type} {c : OfficeService α} {f : α → β}
    (h : c.Safe depositDiscipline (fun _ _ => True) s) :
    (do pure (f (← c)) : OfficeService β).Safe depositDiscipline (fun _ _ => True) s := by
  refine Call.safe_bind (Call.safe_mono (fun r t _ => ?_) h)
  cases r with
  | error e => trivial
  | ok a => exact Call.safe_pure fun _ _ => trivial

theorem safe_serve {cal : Calendar} (q : DepositCall) :
    (serve cal q).Safe depositDiscipline (fun _ _ => True) s := by
  cases q with
  | createManual userId dto key body => exact safe_answer safe_createManual
  | uploadReceipt userId depositId uploaded note => exact safe_answer safe_uploadReceipt
  | cancel userId depositId => exact safe_answer safe_cancel
  | startReview adminUserId depositId => exact safe_answer safe_startReview
  | approve adminUserId depositId note cashAccountCode => exact safe_answer safe_approve
  | reject adminUserId depositId reason => exact safe_answer safe_reject
  | requestNewReceipt adminUserId depositId note => exact safe_answer safe_requestNewReceipt
  | expireStaleRequests =>
    exact safe_answer (f := fun _ => DepositAnswer.expired) safe_expireStaleRequests

/-- The rest of the application: the clock moves, journals are posted, requests for large
amounts are opened with their proforma. It neither moves the rials of the wallets nor posts
journals of deposits. -/
structure Outside (s s' : OfficeDb) : Prop where
  accounts : Accounts s s'
  supply : s.store.nextId ≤ s'.store.nextId
  change : Idle s s' ∨ ∃ d, Opened d s s' ∧ s.store.nextId ≤ d.id ∧ d.id < s'.store.nextId

theorem quiet_outside (s s' : OfficeDb) (h : Outside s s') :
    depositDiscipline.trans s s' ∧ ∀ r, depositDiscipline.frame r s s' := by
  rcases h.change with hidle | ⟨d, hopened, hfresh, -⟩
  · exact ⟨⟨h.accounts, h.supply, .idle hidle⟩, frame_idle hidle.deposits h.supply⟩
  · refine ⟨⟨h.accounts, h.supply, .opened d hopened⟩, fun r => ?_⟩
    show depositFrame r s s'
    unfold depositFrame
    split
    · intro d₁ hd₁
      rw [hopened.find?, if_neg, hd₁]
      rintro rfl
      rw [hopened.new] at hd₁
      cases hd₁
    · rintro ⟨hdrawn, hnone⟩
      refine ⟨hdrawn.trans_le h.supply, ?_⟩
      rw [hopened.find?, if_neg, hnone]
      rintro rfl
      exact absurd hdrawn (not_lt.mpr hfresh)
    · trivial

/-- No request has been opened yet. -/
structure NoDeposits (s : OfficeDb) : Prop where
  deposits : s.deposits.rows = []
  marks : s.depositMarks = []
  entries : ∀ n, s.depositEntries n = []

/-- A new receipt of the request was asked for, and none has come since. -/
def AskedFor (s : OfficeDb) (d : DepositRequest) : Prop :=
  d.status = .receiptUploaded ∧ ∃ before after, s.depositMarks = before ++ .asksReceipt d.id :: after ∧
    .uploads d.id ∉ after ∧ .rejects d.id ∉ after

/-- Until a request expires, its user can upload the receipt that was asked for. -/
def NewReceiptWelcome (s : OfficeDb) : Prop :=
  ∀ d ∈ s.deposits.rows, AskedFor s d → s.now ≤ d.expiresAt → ∀ file note,
    ∃ duplicate s', (uploadReceipt d.userId d.id (.ok file) note).Returns s duplicate s'

/-- What holds of the requests in every state of a run from `s₀`. -/
structure LifeCycle (s₀ s : OfficeDb) : Prop where
  credited : ∀ k, s.walletRial k = s₀.walletRial k + s.approvedRial k
  owned : ∀ id d, s.deposits.find? id = some d →
    ∃ w, s.store.wallets.find? d.walletId = some w ∧ w.userId = d.userId
  posted : ∀ id d, s.deposits.find? id = some d →
    if d.status = .approved then
      ∃ entries, s.depositEntries id = [entries] ∧ PaysIn s.books d entries ∧
        DoubleEntry.Balanced LedgerEntry.side LedgerEntry.amountRial entries ∧
        DoubleEntry.Balanced LedgerEntry.side LedgerEntry.amountGrams entries
    else s.depositEntries id = []
  consumed : ∀ id d p, s.deposits.find? id = some d → d.proformaInvoiceId = some p →
    ∃ i, s.invoices.find? p = some i ∧ (i.status = .consumed ↔ d.status = .approved)
  rejections : ∀ id, rejectionsOf s id ≤ MAX_REJECTIONS
  uploads : UploadsInTime s.depositMarks
  retry : NewReceiptWelcome s

/-- Every request is opened as PENDING_PAYMENT, and changes its status along `TRANSITIONS`. -/
def FollowsTransitions (s s' : OfficeDb) : Prop :=
  (∀ id d, s.deposits.find? id = some d → ∃ d', s'.deposits.find? id = some d' ∧
    (d'.status = d.status ∨ canTransition d.status d'.status = true)) ∧
  ∀ id d', s'.deposits.find? id = some d' → s.deposits.find? id = none → d'.status = .pendingPayment

theorem NoDeposits.sound (h : NoDeposits s) : Sound s s := by
  have hnone : ∀ k, s.deposits.find? k = none := fun k =>
    Table.find?_eq_none.mpr (by simp [h.deposits])
  refine ⟨fun k => ?_, fun k d hd => ?_, fun k k' d d' p hd => ?_, fun k _ => ⟨?_, h.entries k⟩, ?_, ?_⟩
  · simp [OfficeDb.approvedRial, Table.sum, h.deposits]
  · rw [hnone] at hd
    cases hd
  · rw [hnone] at hd
    cases hd
  · rw [rejectionsOf, h.marks, List.count_nil]
  · intro before after id heq
    rw [h.marks] at heq
    exact absurd heq.symm (by simp)
  · simp [h.marks]

theorem Sound.lifeCycle {s₀ : OfficeDb} (h : Sound s₀ s) : LifeCycle s₀ s where
  credited := h.wallets
  owned id d hd := (h.stands id d hd).owned
  posted id d hd := by
    have hid : d.id = id := Table.key_of_find? hd
    have hpaid := (h.stands id d hd).paid
    rw [hid] at hpaid
    split at hpaid
    · rename_i hstatus
      obtain ⟨entries, hone, hpays⟩ := hpaid
      rw [if_pos hstatus]
      exact ⟨entries, hone, hpays, hpays.balanced⟩
    · rename_i hstatus
      rwa [if_neg hstatus]
  consumed id d p hd hp := (h.stands id d hd).proforma p hp
  rejections id := by
    cases hd : s.deposits.find? id with
    | none => exact (h.absent id hd).1 ▸ Nat.zero_le _
    | some d =>
      have hid : d.id = id := Table.key_of_find? hd
      have hstands := h.stands id d hd
      rw [← hid, hstands.rejections]
      exact hstands.limit
  uploads := h.uploads
  retry := by
    rintro d - ⟨-, before, after, hmarks, -⟩
    have hask : OfficeMark.asksReceipt d.id ∈ s.depositMarks := by
      rw [hmarks]
      simp
    exact absurd hask (h.unasked d.id)

theorem followsTransitions_step (h : DepositStep s s') : FollowsTransitions s s' := by
  refine ⟨fun id d hd => ?_, fun id d' hd' hnone => ?_⟩
  · obtain ⟨d', hd', -, hlegal⟩ := h.change.kept hd
    exact ⟨d', hd', hlegal⟩
  · cases h.change with
    | idle hidle =>
      rw [hidle.deposits, hnone] at hd'
      cases hd'
    | opened d hopened =>
      rw [hopened.find?] at hd'
      split at hd'
      · exact Option.some.inj hd' ▸ hopened.pending
      · rw [hnone] at hd'
        cases hd'
    | taken d₀ d₀' htaken =>
      rw [htaken.find?] at hd'
      split at hd'
      · rename_i hk
        rw [hk, htaken.before] at hnone
        cases hnone
      · rw [hnone] at hd'
        cases hd'

/-- A request whose receipt was uploaded takes no other receipt. -/
theorem upload_refused {uploaded : Except ApiError StoredFile} {note : Option String}
    {duplicate : Bool} (hd : s.deposits.find? d.id = some d) (hstatus : d.status = .receiptUploaded) :
    ¬(uploadReceipt d.userId d.id uploaded note).Returns s duplicate s' := by
  intro h
  simp only [uploadReceipt, Call.returns_bind, Call.returns_transaction, Block.ok_get,
    Call.returns_getOrFail, Call.returns_ofExcept] at h
  obtain ⟨t, _, ⟨rfl, rfl⟩, d', _, ⟨hd', rfl⟩, _, _, ⟨hassert, rfl⟩, -⟩ := h
  have hkey : d'.id = d.id := by
    have hpred := List.find?_some hd'
    simp only [Bool.and_eq_true, beq_iff_eq] at hpred
    exact hpred.1
  have hmem := Table.find?_of_mem (List.mem_of_find?_eq_some hd')
  rw [hkey, hd, Option.some.injEq] at hmem
  subst hmem
  have hlegal := canTransition_of_assert hassert
  rw [hstatus] at hlegal
  cases hlegal

/-- So nobody who is asked for a new receipt can deliver it. -/
theorem never_welcome (hd : d ∈ s.deposits.rows) (hasked : AskedFor s d) (hnow : s.now ≤ d.expiresAt) :
    ¬NewReceiptWelcome s := by
  intro hwelcome
  obtain ⟨duplicate, s', hreturns⟩ := hwelcome d hd hasked hnow ⟨"", "", "", "", 0, ""⟩ none
  exact upload_refused (Table.find?_of_mem hd) hasked.1 hreturns

/-! ## A deposit -/

/-- The office before the first request: a verified user with a card and a wallet. -/
def newOffice : OfficeDb :=
  { OfficeDb.opening (Chart.opening ["1010", "1050", "1025", "2010"]) 0 with
    texts := fun key =>
      if key = "deposit.card_to_card.destination_card" then some "6037" else none
    store := { Db.opening (Chart.opening ["1010", "1050", "1025", "2010"]) 0 with
      users := ⟨[⟨2, .active, some .verified⟩], 3, by decide, by decide⟩
      bankAccounts := ⟨[⟨7, 2, "6274", true⟩], 8, by decide, by decide⟩
      wallets := ⟨[⟨5, 2, "", 0, 0⟩], 6, by decide, by decide⟩ } }

/-- The receipt of the transfer is uploaded. -/
def sendReceipt : DepositCall := .uploadReceipt 2 100 (.ok ⟨"", "", "", "", 0, ""⟩) none

/-- A session executes `n` statements. -/
def statements (n i : ℕ) : List (WorldEvent DepositCall ApiError OfficeDb) :=
  List.replicate n (.advance i)

/-- A request for two hundred thousand rials is opened. -/
def asked : List (WorldEvent DepositCall ApiError OfficeDb) :=
  .start (.createManual 2 ⟨.cardToCard, 200000, 7⟩ none fun attempt => toString attempt) ::
    statements 36 0

/-- Its receipt is uploaded and under review. -/
def underReview : List (WorldEvent DepositCall ApiError OfficeDb) :=
  asked ++ .start sendReceipt :: statements 18 1 ++ .start (.startReview 9 100) :: statements 8 2

/-- An upload that was checked before comes to its end, and the receipt is rejected. -/
def rejectedRound (upload review : ℕ) : List (WorldEvent DepositCall ApiError OfficeDb) :=
  statements 14 upload ++ .start (.startReview 9 100) :: statements 8 review ++
    .start (.reject 9 100 "unreadable") :: statements 10 (review + 1)

/-- Four uploads are checked before the first of them is rejected. -/
def fourUploads : List (WorldEvent DepositCall ApiError OfficeDb) :=
  asked ++ (.start sendReceipt :: statements 4 1) ++ (.start sendReceipt :: statements 4 2) ++
    (.start sendReceipt :: statements 4 3) ++ (.start sendReceipt :: statements 4 4) ++
    rejectedRound 1 5 ++ rejectedRound 2 7 ++ rejectedRound 3 9 ++ statements 14 4

/-- Whether an upload finds the request as its check did, and nobody asks for a new receipt. -/
def receiptsInTime : OfficeMark → OfficeDb → Bool
  | .uploads id, s => (s.deposits.find? id).all fun d => decide (d.rejectionCount < MAX_REJECTIONS)
  | .asksReceipt _, _ => false
  | _, _ => true

theorem receiptsInTime_sound (l : OfficeMark) (s : OfficeDb) (h : receiptsInTime l s = true) :
    ReceiptsInTime l s := by
  cases l with
  | uploads id =>
    intro d hd
    have hall : (s.deposits.find? id).all fun d => decide (d.rejectionCount < MAX_REJECTIONS) := h
    rw [hd] at hall
    simpa using hall
  | asksReceipt id => cases h
  | _ => trivial

theorem noDeposits_newOffice : NoDeposits newOffice := ⟨rfl, rfl, fun _ => rfl⟩

/-- A world after the events, as long as the marks passed meet the condition. -/
abbrev played (cond : OfficeMark → OfficeDb → Bool)
    (w : World DepositCall ApiError OfficeRow OfficeMark OfficeDb DepositAnswer)
    (es : List (WorldEvent DepositCall ApiError OfficeDb)) :
    Option (World DepositCall ApiError OfficeRow OfficeMark OfficeDb DepositAnswer) :=
  w.playAllowed (serve .of1404) cond es

/-- The status of the request and the rials of the wallet. -/
def standing (s : OfficeDb) : Option DepositStatus × ℤ :=
  ((s.deposits.find? 100).map DepositRequest.status, s.walletRial 5)

/-- Whether an event is one of the sessions. -/
def isInside : WorldEvent DepositCall ApiError OfficeDb → Bool
  | .outside _ => false
  | _ => true

theorem runs_played {cond : OfficeMark → OfficeDb → Bool} {P : OfficeMark → OfficeDb → Prop}
    (hcond : ∀ l s, cond l s = true → P l s)
    {v v' : World DepositCall ApiError OfficeRow OfficeMark OfficeDb DepositAnswer}
    {es : List (WorldEvent DepositCall ApiError OfficeDb)} (h : played cond v es = some v')
    (hinside : es.all isInside = true) :
    Runs (World.Step (serve .of1404) Outside) (World.Allowed P) v v' := by
  refine World.runs_of_playAllowed hcond h fun e he s heq => ?_
  have hin := List.all_eq_true.mp hinside e he
  rw [heq] at hin
  cases hin

end DepositService

end ArkanGold
