import ArkanGold.Accounting.Reversal
import ArkanGold.Partners.PartnerOrders

/-!
# A refund takes back what its confirmation did

What a confirmation and a refund of an order do to the wallets, the bars, the partner and
the books, each by itself, and that the one undoes the other.

- `Confirmed`: what a confirmation has done, from `confirmOrder_ok`.
- `Between`: what others may do before the refund. They post journals and settle orders;
  the accounts and the entries of the confirmation stay.
- `refund_undoes_confirm`: the refund succeeds and restores everything if and only if the
  books admit the reversal and, for a bar, the ownership was not created before the
  instant that the order records.
-/

namespace ArkanGold

open AccountingService

namespace OfficeDb

/-- The gold in the wallet of a user. -/
def goldOf (s : OfficeDb) (userId : ℕ) : ℤ :=
  ((s.store.walletOf userId).map Wallet.goldBalanceGrams).getD 0

/-- The status of a bar and its ACTIVE ownerships. -/
def barState (s : OfficeDb) (barId : ℕ) : Option HologramCodeStatus × List HologramOwnership :=
  ((s.bars.find? barId).map HologramCode.status, s.activeOwnerships barId)

/-- What a partner owes. -/
def partnerBalance (s : OfficeDb) (partnerId : ℕ) : ℤ :=
  ((s.partners.find? partnerId).map SalesPartner.balanceRial).getD 0

end OfficeDb

namespace PartyLedgerService

/-- `post` moves the balance of the partner and writes a line of the ledger. -/
theorem ok_post {input : PartyLedgerInput} {s s' : OfficeDb} {n : ℕ} :
    (post input).Ok s n s' ↔ ∃ party, s.partners.find? input.partyId = some party ∧
      n = s.store.nextId ∧ s.partyLedger.find? s.store.nextId = none ∧
      s' = ((s.setPartners (s.partners.update input.partyId fun p =>
        { p with balanceRial := party.balanceRial + input.debitRial - input.creditRial })).spendId
        ).setPartyLedger (s.partyLedger.insert
          { id := s.store.nextId
            partyId := input.partyId
            type := input.type
            debitRial := input.debitRial
            creditRial := input.creditRial
            balanceAfterRial := party.balanceRial + input.debitRial - input.creditRial
            referenceType := input.referenceType
            referenceId := input.referenceId }) := by
  simp only [post, Block.ok_bind, Block.ok_lock, Block.ok_get, Block.ok_getOrFail,
    OfficeStmt.ok_update, OfficeStmt.ok_create]
  constructor
  · rintro ⟨_, _, rfl, _, _, ⟨rfl, rfl⟩, party, _, ⟨hparty, rfl⟩, _, _, ⟨-, rfl⟩, rfl, hnew, rfl⟩
    exact ⟨party, hparty, rfl, hnew, rfl⟩
  · rintro ⟨party, hparty, rfl, hnew, rfl⟩
    exact ⟨(), s, rfl, s, s, ⟨rfl, rfl⟩, party, s, ⟨hparty, rfl⟩, (), _, ⟨⟨party, hparty⟩, rfl⟩,
      rfl, hnew, rfl⟩

end PartyLedgerService

namespace PartnerOrdersService

open PartnerAccounts

variable {s s' t : OfficeDb} {o : PartnerOrder} {partner : SalesPartner} {adminId : Option ℕ}
  {m : Moments}

theorem ok_lock {id : ℕ} {r : PartnerOrder × SalesPartner} :
    (lock id).Ok s r s' ↔ s' = s ∧ s.partnerOrders.find? id = some r.1 ∧
      s.partners.find? r.1.partnerId = some r.2 := by
  simp only [lock, Block.ok_bind, Block.ok_lock, Block.ok_get, Block.ok_getOrFail, Block.ok_pure]
  constructor
  · rintro ⟨_, _, rfl, _, _, ⟨rfl, rfl⟩, o, _, ⟨ho, rfl⟩, p, _, ⟨hp, rfl⟩, rfl, rfl⟩
    exact ⟨rfl, ho, hp⟩
  · rintro ⟨rfl, ho, hp⟩
    exact ⟨(), s', rfl, s', s', ⟨rfl, rfl⟩, r.1, s', ⟨ho, rfl⟩, r.2, s', ⟨hp, rfl⟩, rfl, rfl⟩

/-! ## What a confirmation has done -/

/-- What the delivery of an order has done, by its kind: gold for the wallet, or a bar of the
vault that the customer owns now. -/
inductive Delivered (o : PartnerOrder) (m : Moments) (s t : OfficeDb) : Prop where
  | melted (kind : o.productKind = .meltedGold)
      (gold : ∀ u, t.goldOf u = s.goldOf u + if u = o.userId then o.amountGrams else 0)
      (bars : ∀ b, t.barState b = s.barState b)
  | bullion (kind : o.productKind = .bullion) (gold : ∀ u, t.goldOf u = s.goldOf u)
      (barId : ℕ) (bar : o.hologramCodeId = some barId)
      (before : s.barState barId = (some .unassigned, []))
      (after : ∃ a, t.barState barId = (some .assigned, [a]) ∧ a.hologramCodeId = barId ∧
        a.ownerUserId = o.userId ∧ a.createdAt = m.ownedAt)
      (others : ∀ b, b ≠ barId → t.barState b = s.barState b)

/-- The posting of a journal whose amounts fit the columns. -/
structure Posted (s t : OfficeDb) (params : JournalInput) (posted : List PostedLine) : Prop where
  posting : Posting s.books params posted
  fits : ∀ l ∈ params.lines,
    Numeric.Fits rialScale l.amountRial ∧ Numeric.Fits gramScale l.amountGrams
  original : params.reversalOfId = none
  books : t.books = Stmt.writeJournal s.now params posted s.books

/-- What a confirmation has done. -/
structure Confirmed (o : PartnerOrder) (partner : SalesPartner) (m : Moments) (s t : OfficeDb) :
    Prop where
  order : ∃ transactionId dueDate, t.partnerOrders.find? o.id = some
    { o with
      status := .confirmed
      confirmedAt := some m.confirmedAt
      dueDate := dueDate
      transactionId := transactionId
      confirmJournalId := some s.books.journals.next }
  partners : ∀ p q, s.partners.find? p = some q → ∃ q', t.partners.find? p = some q'
  posted : ∃ params posted, Posted s t params posted
  delivered : Delivered o m s t
  balance : ∀ p, t.partnerBalance p =
    s.partnerBalance p + if p = partner.id then o.netReceivableRial else 0

/-- The wallet of the customer receives the gold. -/
theorem deliverMelted_ok {n : ℕ} (h : (deliverMelted o partner).Ok s n t) :
    t.books = s.books ∧ t.partners = s.partners ∧ t.partnerOrders = s.partnerOrders ∧
      (∀ u, t.goldOf u = s.goldOf u + if u = o.userId then o.amountGrams else 0) ∧
      (∀ b, t.barState b = s.barState b) := by
  simp only [deliverMelted, OfficeStmt.ok_onStore, Block.ok_bind, Stmt.ok_lockWalletOf,
    Block.ok_get, Block.ok_getOrFail, Stmt.ok_updateWallet_iff] at h
  obtain ⟨_, ⟨_, _, rfl, _, _, ⟨rfl, rfl⟩, w, _, ⟨hw, rfl⟩, _, _, ⟨-, rfl⟩, hcreate⟩, rfl⟩ := h
  obtain ⟨tx, -, -, -, rfl⟩ := Stmt.ok_create hcreate
  refine ⟨rfl, rfl, rfl, fun u => ?_, fun _ => rfl⟩
  exact Db.gold_update hw (f := fun w => { w with
    goldBalanceGrams := w.goldBalanceGrams + o.amountGrams }) (fun _ => rfl) (fun _ => rfl)
    (fun _ => rfl) u

/-- A bar that is in the vault. -/
theorem barState_of_inVault {barId : ℕ} {bar : HologramCode}
    (h : (s.bars.find? barId).filter (inVault s) = some bar) :
    s.bars.find? barId = some bar ∧ bar.id = barId ∧
      s.barState barId = (some .unassigned, []) := by
  rw [Option.filter_eq_some_iff] at h
  obtain ⟨hfind, hvault⟩ := h
  simp only [inVault, Bool.and_eq_true, beq_iff_eq, List.isEmpty_iff] at hvault
  have hid : bar.id = barId := Table.key_of_find? hfind
  refine ⟨hfind, hid, ?_⟩
  rw [OfficeDb.barState, hfind, ← hid, hvault.2, Option.map_some, hvault.1.1]

/-- The customer owns the bar. -/
theorem deliverBar_ok {u : Unit} (h : (deliverBar o adminId m).Ok s u t) :
    t.books = s.books ∧ t.partners = s.partners ∧ t.partnerOrders = s.partnerOrders ∧
      (∀ u, t.goldOf u = s.goldOf u) ∧
      ∃ barId, o.hologramCodeId = some barId ∧ s.barState barId = (some .unassigned, []) ∧
        (∃ a, t.barState barId = (some .assigned, [a]) ∧ a.hologramCodeId = barId ∧
          a.ownerUserId = o.userId ∧ a.createdAt = m.ownedAt) ∧
        ∀ b, b ≠ barId → t.barState b = s.barState b := by
  simp only [deliverBar, Block.ok_bind, Block.ok_getOrFail, Block.ok_lock, Block.ok_get,
    Block.ok_mark, OfficeStmt.createOwnership, OfficeStmt.ok_createUnique, existsAndEq, exists_const,
    and_true, true_and] at h
  obtain ⟨barId, hbarId, bar, hbar, n, t₁, ⟨-, hcreate⟩, hupdate⟩ := h
  obtain ⟨hfind, hid, hstate⟩ := barState_of_inVault hbar
  obtain ⟨owned, a, ha, -, hnew, howned, ht₁⟩ := OfficeStmt.create_ok (fun _ => rfl) hcreate
  obtain ⟨bars, _, -, hbars, ht⟩ := OfficeStmt.update_ok hupdate
  have hrow : a.hologramCodeId = bar.id ∧ a.ownerUserId = o.userId ∧ a.createdAt = m.ownedAt ∧
      a.status = .active := by
    rw [ha]
    exact ⟨rfl, rfl, rfl, rfl⟩
  obtain ⟨hcode, howner, hcreated, hactive⟩ := hrow
  clear ha hcreate hupdate
  subst hid
  have hlist := OfficeDb.activeOwnerships_insert (s := s) (t := t) hnew
    (by rw [ht, ht₁]; exact howned) hactive
  rw [hcode] at hlist
  have hstatus : ∀ b, t.bars.find? b = if b = bar.id then some { bar with
      status := .assigned
      assignedAt := some m.confirmedAt
      assignedByAdminId := adminId } else s.bars.find? b := by
    intro b
    subst ht ht₁ hbars
    by_cases hb : b = bar.id
    · simp [hb, hfind]
    · simp [hb, Table.find?_update_of_ne _ hb]
  have hbefore : s.activeOwnerships bar.id = [] := congrArg Prod.snd hstate
  subst ht ht₁
  refine ⟨rfl, rfl, rfl, fun _ => rfl, bar.id, hbarId, hstate, ⟨a, ?_, hcode, howner, hcreated⟩,
    fun b hb => ?_⟩
  · rw [OfficeDb.barState, hstatus, hlist, hbefore, if_pos rfl, if_pos rfl]
    rfl
  · rw [OfficeDb.barState, hstatus, hlist, if_neg hb, if_neg (Ne.symm hb), List.append_nil]
    rfl

/-! ### The journal -/

/-- The amounts of a line can be stored without rounding. -/
def LineFits (l : LedgerLineInput) : Prop :=
  Numeric.Fits rialScale l.amountRial ∧ Numeric.Fits gramScale l.amountGrams

theorem fits_zero (scale : ℕ) : Numeric.Fits scale 0 := by
  have h := Numeric.fits_ofScale scale 0
  rwa [Numeric.ofScale_zero] at h

theorem fits_rials (n : ℤ) : Numeric.Fits rialScale (rials n) := Numeric.fits_ofScale _ n

theorem fits_lineUnlessZero (code : String) (side : LedgerSide) (n : ℤ) :
    ∀ l ∈ lineUnlessZero code side n, LineFits l := by
  intro l hl
  unfold lineUnlessZero at hl
  split at hl
  · rw [List.mem_singleton] at hl
    subst hl
    exact ⟨fits_rials n, fits_zero _⟩
  · cases hl

theorem fits_commonLines (o : PartnerOrder) : ∀ l ∈ commonLines o, LineFits l := by
  intro l hl
  simp only [commonLines, List.mem_append, List.mem_singleton] at hl
  rcases hl with ((rfl | hl) | hl) | hl
  · exact ⟨fits_rials _, fits_zero _⟩
  · exact fits_lineUnlessZero _ _ _ l hl
  · exact fits_lineUnlessZero _ _ _ l hl
  · exact fits_lineUnlessZero _ _ _ l hl

theorem fits_meltedLines (o : PartnerOrder) : ∀ l ∈ meltedLines o, LineFits l := by
  intro l hl
  simp only [meltedLines, List.mem_append, List.mem_cons, List.not_mem_nil, or_false] at hl
  rcases hl with hl | rfl | rfl
  · exact fits_commonLines o l hl
  · exact ⟨fits_rials _, Numeric.fits_ofScale _ _⟩
  · exact ⟨fits_zero _, Numeric.fits_ofScale _ _⟩

theorem fits_barLines (o : PartnerOrder) {cost : ℚ} (hcost : Numeric.Fits rialScale cost) :
    ∀ l ∈ barLines o cost, LineFits l := by
  intro l hl
  simp only [barLines, List.mem_append, List.mem_cons, List.not_mem_nil, or_false] at hl
  rcases hl with (hl | rfl | rfl | rfl) | hl
  · exact fits_commonLines o l hl
  · exact ⟨fits_rials _, fits_zero _⟩
  · exact ⟨hcost, Numeric.fits_ofScale _ _⟩
  · exact ⟨hcost, Numeric.fits_ofScale _ _⟩
  · exact fits_lineUnlessZero _ _ _ l hl

/-- The average cost is a whole number of rials. -/
theorem fits_averageCostRial (b : Books) (code : String) (grams : ℚ) :
    Numeric.Fits rialScale (OfficeStmt.averageCostRial b code grams) := by
  have hcast : ∀ n : ℤ, Numeric.Fits rialScale (n : ℚ) := by
    intro n
    have h := Numeric.fits_ofScale rialScale n
    rwa [show Numeric.ofScale rialScale n = n by simp [Numeric.ofScale]] at h
  unfold OfficeStmt.averageCostRial
  split
  · exact fits_zero _
  · split
    · exact fits_zero _
    · dsimp only
      split
      · exact fits_zero _
      · rcases min_choice (Numeric.roundHalfAway _ : ℚ) (Numeric.ofScale rialScale _) with h | h
        · rw [h]
          exact hcast _
        · rw [h]
          exact Numeric.fits_ofScale _ _

theorem postConfirmation_ok {transactionId : Option ℕ} {lines : List LedgerLineInput} {u : Unit}
    (hfits : ∀ l ∈ lines, LineFits l)
    (h : (postConfirmation o partner adminId transactionId lines).Ok s u t) :
    (∃ params posted, Posted s t params posted) ∧ t.partners = s.partners ∧
      (∀ u, t.goldOf u = s.goldOf u) ∧ (∀ b, t.barState b = s.barState b) ∧
      t.partnerOrders = s.partnerOrders.update o.id fun r =>
        { r with confirmJournalId := some s.books.journals.next } := by
  obtain ⟨posted, hcheck, rfl⟩ := OfficeStmt.ok_postJournal.mp h
  exact ⟨⟨_, posted, (checkJournal_ok hcheck).1, hfits, rfl, rfl⟩, rfl, fun _ => rfl, fun _ => rfl,
    rfl⟩

/-- Nothing but the books differs for a posting. -/
theorem Posted.of_books {params : JournalInput} {posted : List PostedLine}
    (h : Posted s' t params posted) (hbooks : s'.books = s.books) : Posted s t params posted := by
  obtain ⟨hposting, hfits, horiginal, ht⟩ := h
  have hnow : s'.now = s.now := congrArg Books.now hbooks
  rw [hbooks] at hposting
  rw [hbooks, hnow] at ht
  exact ⟨hposting, hfits, horiginal, ht⟩

theorem deliver_ok {transactionId : Option ℕ}
    (h : (deliver o partner adminId m).Ok s transactionId t) :
    (∃ params posted, Posted s t params posted) ∧ Delivered o m s t ∧
      t.partners = s.partners ∧
      t.partnerOrders = s.partnerOrders.update o.id fun r =>
        { r with confirmJournalId := some s.books.journals.next } := by
  unfold deliver at h
  split at h
  · rename_i hkind
    simp only [Block.ok_bind, Block.ok_pure, existsAndEq, and_true] at h
    obtain ⟨n, s₁, hdeliver, _, hpost, -⟩ := h
    obtain ⟨hbooks, hpartners, horders, hgold, hbars⟩ := deliverMelted_ok hdeliver
    obtain ⟨⟨params, posted, hposted⟩, hpartners', hgold', hbars', horders'⟩ :=
      postConfirmation_ok (fits_meltedLines o) hpost
    refine ⟨⟨params, posted, hposted.of_books hbooks⟩, .melted hkind ?_ ?_,
      hpartners'.trans hpartners, by rw [horders', horders, hbooks]⟩
    · exact fun u => (hgold' u).trans (hgold u)
    · exact fun b => (hbars' b).trans (hbars b)
  · rename_i hkind
    simp only [Block.ok_bind, Block.ok_get, Block.ok_pure, existsAndEq, and_true] at h
    obtain ⟨_, s₁, hdeliver, _, _, hpost, -⟩ := h
    obtain ⟨hbooks, hpartners, horders, hgold, barId, hbarId, hbefore,
      ⟨a, hafter, hcode, howner, hcreated⟩, hothers⟩ := deliverBar_ok hdeliver
    obtain ⟨⟨params, posted, hposted⟩, hpartners', hgold', hbars', horders'⟩ :=
      postConfirmation_ok (fits_barLines o (fits_averageCostRial _ _ _)) hpost
    refine ⟨⟨params, posted, hposted.of_books hbooks⟩,
      .bullion hkind ?_ barId hbarId hbefore ⟨a, ?_, hcode, howner, hcreated⟩ ?_,
      hpartners'.trans hpartners, by rw [horders', horders, hbooks]⟩
    · exact fun u => (hgold' u).trans (hgold u)
    · exact (hbars' barId).trans hafter
    · exact fun b hb => (hbars' b).trans (hothers b hb)

theorem Delivered.congr (h : Delivered o m s s') (hgold : ∀ u, t.goldOf u = s'.goldOf u)
    (hbars : ∀ b, t.barState b = s'.barState b) : Delivered o m s t := by
  cases h with
  | melted hkind hgold' hbars' =>
    exact .melted hkind (fun u => (hgold u).trans (hgold' u))
      fun b => (hbars b).trans (hbars' b)
  | bullion hkind hgold' barId hbarId hbefore hafter hothers =>
    obtain ⟨a, ha, hrow⟩ := hafter
    exact .bullion hkind (fun u => (hgold u).trans (hgold' u)) barId hbarId hbefore
      ⟨a, (hbars barId).trans ha, hrow⟩ fun b hb => (hbars b).trans (hothers b hb)

/-- `post` moves the balance of one partner and nothing of what a refund is about. -/
theorem post_effect {input : PartyLedgerService.PartyLedgerInput} {n : ℕ}
    (h : (PartyLedgerService.post input).Ok s n t) :
    t.books = s.books ∧ t.partnerOrders = s.partnerOrders ∧ (∀ u, t.goldOf u = s.goldOf u) ∧
      (∀ b, t.barState b = s.barState b) ∧
      (∀ p q, s.partners.find? p = some q → ∃ q', t.partners.find? p = some q') ∧
      ∀ p, t.partnerBalance p =
        s.partnerBalance p + if p = input.partyId then input.debitRial - input.creditRial else 0 := by
  obtain ⟨party, hparty, -, -, rfl⟩ := PartyLedgerService.ok_post.mp h
  refine ⟨rfl, rfl, fun _ => rfl, fun _ => rfl, fun p q hq => ?_, fun p => ?_⟩
  · simp only [OfficeDb.setPartyLedger_partners, OfficeDb.spendId_partners,
      OfficeDb.setPartners_partners, Table.update, Table.find?_updateWhere, hq]
    exact ⟨_, rfl⟩
  by_cases hp : p = input.partyId
  · subst hp
    simp [OfficeDb.partnerBalance, hparty]
    ring
  · simp [OfficeDb.partnerBalance, hp, Table.find?_update_of_ne _ hp]

/-- **What `confirm` has done** when it returns and had not confirmed the order before. -/
theorem confirmOrder_ok {id : ℕ} (h : (confirmOrder id adminId m).Ok s false t) :
    ∃ o partner, s.partnerOrders.find? id = some o ∧
      s.partners.find? o.partnerId = some partner ∧ o.status = .pending ∧
      Confirmed o partner m s t := by
  simp only [confirmOrder, Block.ok_bind, ok_lock, Prod.exists, existsAndEq, true_and] at h
  obtain ⟨o, partner, ⟨ho, hpartner⟩, h⟩ := h
  split at h
  · simp at h
  · simp only [Block.ok_bind, Block.ok_get, Block.ok_ofExcept, Block.ok_mark, Block.ok_pure,
      existsAndEq, exists_const, true_and, and_true] at h
    obtain ⟨_, hassert, transactionId, s₁, hdeliver, n, s₂, hpost, _, hupdate⟩ := h
    obtain ⟨⟨params, posted, hposted⟩, hdelivered, hpartners, horders⟩ := deliver_ok hdeliver
    obtain ⟨hbooks₂, horders₂, hgold₂, hbars₂, hpartners₂, hbalance₂⟩ := post_effect hpost
    obtain ⟨orders, _, -, horders₃, rfl⟩ := OfficeStmt.update_ok hupdate
    have hid : o.id = id := Table.key_of_find? ho
    subst hid
    refine ⟨o, partner, ho, hpartner, ?_, ?_⟩
    · unfold assertConfirmable at hassert
      by_contra hne
      rw [if_pos hne] at hassert
      cases hassert
    · refine ⟨⟨transactionId, some (m.confirmedAt + partner.settlementDays * dayMs), ?_⟩,
        fun p q hq => hpartners₂ p q (hpartners ▸ hq), ⟨params, posted, ?_⟩, ?_, fun p => ?_⟩
      · show orders.find? o.id = _
        rw [horders₃, Table.find?_update_self]
        show (s₂.partnerOrders.find? o.id).map _ = _
        rw [horders₂, horders, Table.find?_update_self, ho]
        rfl
      · exact ⟨hposted.posting, hposted.fits, hposted.original, hbooks₂.trans hposted.books⟩
      · exact hdelivered.congr hgold₂ hbars₂
      · refine (hbalance₂ p).trans ?_
        rw [OfficeDb.partnerBalance, hpartners, sub_zero]
        rfl

/-! ## What a refund does -/

/-- The gold goes back if the wallet has it free of holds. -/
theorem takeMelted_total {w : Wallet} (hw : s.store.walletOf o.userId = some w)
    (hrial : 0 ≤ w.rialBalance) (hgold : o.amountGrams ≤ w.goldBalanceGrams)
    (hfree : o.amountGrams ≤ w.goldBalanceGrams - s.store.heldGrams w.id)
    (hnew : s.store.transactions.find? s.store.nextId = none) :
    ∃ t, (takeMelted o partner).Ok s () t ∧ s.store.nextId ≤ t.store.nextId ∧
      t.partnerOrders = s.partnerOrders ∧ t.partners = s.partners ∧ t.books = s.books ∧
      t.partyLedger = s.partyLedger ∧
      (∀ u, t.goldOf u = s.goldOf u - if u = o.userId then o.amountGrams else 0) ∧
      (∀ b, t.barState b = s.barState b) := by
  have hfind : s.store.wallets.find? w.id = some w :=
    Table.find?_of_mem (List.mem_of_find?_eq_some hw)
  simp only [takeMelted, OfficeStmt.ok_onStore, Block.ok_bind, Stmt.ok_lockWalletOf,
    Block.ok_get, Block.ok_getOrFail, Block.ok_check, Stmt.ok_updateWallet_iff, Block.ok_pure,
    Stmt.create, Relation.ok_create, hw, decide_eq_true_eq, existsAndEq, exists_const, true_and,
    and_true, Option.some.injEq]
  refine ⟨⟨hfree, ⟨w, hfind, hrial, by omega⟩, hnew⟩, Nat.le_succ _, rfl, rfl, rfl, rfl,
    fun u => ?_, fun _ => rfl⟩
  refine (Db.gold_update hw (f := fun w => { w with
    goldBalanceGrams := w.goldBalanceGrams - o.amountGrams }) (fun _ => rfl) (fun _ => rfl)
    (fun _ => sub_eq_add_neg _ _) u).trans ?_
  rw [OfficeDb.goldOf]
  split <;> simp [sub_eq_add_neg]

/-- The ownership that a refund of a delivered bar ends. -/
theorem refundable_of_barState {barId : ℕ} {a : HologramOwnership}
    (hstate : s.barState barId = (some .assigned, [a])) :
    refundable s o barId =
      if a.ownerUserId = o.userId ∧ ∀ t, o.confirmedAt = some t → t ≤ a.createdAt
      then some a else none := by
  obtain ⟨hstatus, hlist⟩ := Prod.mk.inj hstate
  obtain ⟨bar, hfind, hassigned⟩ := Option.map_eq_some_iff.mp hstatus
  have hid : bar.id = barId := Table.key_of_find? hfind
  rw [refundable, hfind, Option.filter_some, if_pos (by simp [hassigned]), Option.bind_some, hid,
    hlist, List.head?_cons, Option.filter_some]
  refine if_congr ?_ rfl rfl
  cases o.confirmedAt <;> simp

/-- The bar goes back if it is the customer's by an ownership that is not older than the
order records. -/
theorem takeBar_iff {barId : ℕ} (hbar : o.hologramCodeId = some barId) {a : HologramOwnership}
    (hstate : s.barState barId = (some .assigned, [a])) :
    (∃ t, (takeBar o).Ok s () t) ↔
      a.ownerUserId = o.userId ∧ ∀ t, o.confirmedAt = some t → t ≤ a.createdAt := by
  have hmem : a ∈ s.ownerships.rows := by
    have hlist : s.activeOwnerships barId = [a] := congrArg Prod.snd hstate
    have ha : a ∈ s.activeOwnerships barId := by
      rw [hlist]
      exact List.mem_singleton_self a
    exact (List.mem_filter.mp ha).1
  obtain ⟨bar, hfind, -⟩ := Option.map_eq_some_iff.mp (congrArg Prod.fst hstate)
  simp only [takeBar, Block.ok_bind, Block.ok_getOrFail, Block.ok_lock, Block.ok_get, hbar,
    OfficeStmt.ok_update, refundable_of_barState hstate, existsAndEq, exists_const, true_and,
    and_true, Option.some.injEq]
  constructor
  · rintro ⟨_, h, -⟩
    by_contra hne
    rw [if_neg hne] at h
    cases h
  · exact fun h => ⟨a, if_pos h, ⟨a, Table.find?_of_mem hmem⟩, bar, hfind⟩

theorem takeBar_ok {barId : ℕ} (hbar : o.hologramCodeId = some barId) {a : HologramOwnership}
    (hstate : s.barState barId = (some .assigned, [a])) (h : (takeBar o).Ok s () t) :
    t.store = s.store ∧ t.partnerOrders = s.partnerOrders ∧ t.partners = s.partners ∧
      t.partyLedger = s.partyLedger ∧ t.barState barId = (some .unassigned, []) ∧
      ∀ b, b ≠ barId → t.barState b = s.barState b := by
  simp only [takeBar, Block.ok_bind, Block.ok_getOrFail, Block.ok_lock, Block.ok_get, hbar,
    refundable_of_barState hstate, existsAndEq, exists_const, true_and, and_true,
    Option.some.injEq] at h
  obtain ⟨active, hactive, _, s₁, hend, hupdate⟩ := h
  have ha : active = a := by
    split at hactive
    · exact (Option.some.inj hactive).symm
    · cases hactive
  subst ha
  obtain ⟨owned, _, -, howned, hs₁⟩ := OfficeStmt.update_ok hend
  obtain ⟨bars, bar, hfind, hbars, ht⟩ := OfficeStmt.update_ok hupdate
  have hlist := OfficeDb.activeOwnerships_end_only (t := t) (by rw [ht, hs₁]; exact howned)
    (fun _ => by simp) (congrArg Prod.snd hstate)
  subst ht hs₁
  refine ⟨rfl, rfl, rfl, rfl, ?_, fun b hb => ?_⟩
  · rw [OfficeDb.barState, hlist, if_pos rfl]
    subst hbars
    have hfind : s.bars.find? barId = some bar := hfind
    simp [hfind]
  · rw [OfficeDb.barState, hlist, if_neg hb]
    subst hbars
    simp [OfficeDb.barState, Table.find?_update_of_ne _ hb]

/-! ## Between the two -/

/-- What others do between a confirmation and the refund: accounts keep their codes, journals
their entries, and the order can be settled. -/
structure Between (id : ℕ) (s₁ s₂ : OfficeDb) : Prop where
  order : ∀ o, s₁.partnerOrders.find? id = some o →
    ∃ o', s₂.partnerOrders.find? id = some o' ∧ (o' = o ∨ ∃ n, o' = settled n o)
  partners : ∀ p q, s₁.partners.find? p = some q → ∃ q', s₂.partners.find? p = some q'
  journals : ∀ k j, s₁.books.journals.find? k = some j →
    ∃ j', s₂.books.journals.find? k = some j' ∧ j'.ledgerEntries = j.ledgerEntries ∧
      j'.reversalOfId = j.reversalOfId
  accounts : ∀ k a, s₁.books.accounts.find? k = some a →
    ∃ a', s₂.books.accounts.find? k = some a' ∧ a'.code = a.code

/-- What the database ensures: an id that the supply hands out is new, and no wallet is
overdrawn. -/
structure Consistent (s : OfficeDb) : Prop where
  transactions : ∀ n, s.store.nextId ≤ n → s.store.transactions.find? n = none
  partyLedger : ∀ n, s.store.nextId ≤ n → s.partyLedger.find? n = none
  wallets : ∀ w ∈ s.store.wallets.rows, 0 ≤ w.rialBalance

/-- The customer still has what the confirmation has delivered. -/
def StillHeld (o : PartnerOrder) (s₁ s₂ : OfficeDb) : Prop :=
  match o.productKind with
  | .meltedGold => ∃ w, s₂.store.walletOf o.userId = some w ∧
      o.amountGrams ≤ w.goldBalanceGrams ∧
      o.amountGrams ≤ w.goldBalanceGrams - s₂.store.heldGrams w.id
  | .bullion => ∀ barId, o.hologramCodeId = some barId → s₂.barState barId = s₁.barState barId

/-- The books admit the reversal of the journal of the confirmation. -/
def Reversible (s : OfficeDb) (o : PartnerOrder) : Prop :=
  ∃ k j, o.confirmJournalId = some k ∧ s.books.journals.find? k = some j ∧
    AccountsActive s.books j.ledgerEntries ∧ NotReversed s.books k

/-- From `s₀` to `s₁` and from `s₂` to `s₃` the opposite happens to every wallet, partner and
account, and a bar that nobody has moved in between is where it was. -/
structure Restored (s₀ s₁ s₂ s₃ : OfficeDb) : Prop where
  gold : ∀ u, s₃.goldOf u - s₂.goldOf u = -(s₁.goldOf u - s₀.goldOf u)
  bars : ∀ b, s₂.barState b = s₁.barState b → s₃.barState b = s₀.barState b
  partners : ∀ p, s₃.partnerBalance p - s₂.partnerBalance p =
    -(s₁.partnerBalance p - s₀.partnerBalance p)
  rial : ∀ k, balanceAt .rial s₃.books k - balanceAt .rial s₂.books k =
    -(balanceAt .rial s₁.books k - balanceAt .rial s₀.books k)
  grams : ∀ k, balanceAt .grams s₃.books k - balanceAt .grams s₂.books k =
    -(balanceAt .grams s₁.books k - balanceAt .grams s₀.books k)

/-! ## The return of what was delivered -/

/-- What the return has done, after a delivery from `s₀` to `s₁`. -/
structure TakenBack (s₀ s₁ s t : OfficeDb) : Prop where
  supply : s.store.nextId ≤ t.store.nextId
  orders : t.partnerOrders = s.partnerOrders
  partners : t.partners = s.partners
  partyLedger : t.partyLedger = s.partyLedger
  books : t.books = s.books
  gold : ∀ u, t.goldOf u - s.goldOf u = -(s₁.goldOf u - s₀.goldOf u)
  bars : ∀ b, s.barState b = s₁.barState b → t.barState b = s₀.barState b

/-- What was delivered and is still held can be taken back if it is gold, or if the ownership
of the bar is not older than the order records. -/
theorem takeBack_spec {s₀ s₁ : OfficeDb} (hdelivered : Delivered o m s₀ s₁)
    (hconfirmedAt : o.confirmedAt = some m.confirmedAt) (hcons : Consistent s)
    (hheld : StillHeld o s₁ s) :
    ((∃ t, (takeBack o partner).Ok s () t) ↔
      o.productKind = .meltedGold ∨ m.confirmedAt ≤ m.ownedAt) ∧
    ∀ t, (takeBack o partner).Ok s () t → TakenBack s₀ s₁ s t := by
  have hunique : ∀ {t t' : OfficeDb}, (takeBack o partner).Ok s () t →
      (takeBack o partner).Ok s () t' → t' = t := fun h h' =>
    congrArg Prod.snd (h'.symm.trans h)
  cases hdelivered with
  | melted hkind hgold hbars =>
    simp only [StillHeld, hkind] at hheld
    obtain ⟨w, hw, hgold', hfree⟩ := hheld
    obtain ⟨t, hok, hnext, horders, hpartners, hbooks, hledger, hgold₂, hbars₂⟩ :=
      (@takeMelted_total _ _ partner) hw (hcons.wallets w (List.mem_of_find?_eq_some hw))
        hgold' hfree (hcons.transactions _ le_rfl)
    have htake : (takeBack o partner).Ok s () t := by
      simpa only [takeBack, hkind] using hok
    refine ⟨⟨fun _ => .inl hkind, fun _ => ⟨t, htake⟩⟩, fun t' ht' => ?_⟩
    obtain rfl := hunique htake ht'
    refine ⟨hnext, horders, hpartners, hledger, hbooks, fun u => ?_, fun b hb => ?_⟩
    · rw [hgold₂, hgold]
      ring
    · rw [hbars₂, hb, hbars]
  | bullion hkind hgold barId hbarId hbefore hafter hothers =>
    simp only [StillHeld, hkind] at hheld
    obtain ⟨a, ha, -, howner, hcreated⟩ := hafter
    have hstate : s.barState barId = (some .assigned, [a]) := (hheld barId hbarId).trans ha
    have hiff := takeBar_iff hbarId hstate
    rw [hconfirmedAt] at hiff
    refine ⟨?_, fun t ht => ?_⟩
    · simp only [takeBack, hkind, hiff]
      simp [howner, hcreated]
    · have hok : (takeBar o).Ok s () t := by
        simpa only [takeBack, hkind] using ht
      obtain ⟨hstore, horders, hpartners, hledger, hbar, hother⟩ := takeBar_ok hbarId hstate hok
      refine ⟨by rw [hstore], horders, hpartners, hledger, congrArg Db.books hstore, fun u => ?_,
        fun b hb => ?_⟩
      · rw [hgold, OfficeDb.goldOf, hstore, OfficeDb.goldOf]
        simp
      · by_cases hbb : b = barId
        · rw [hbb, hbar, hbefore]
        · rw [hother b hbb, hb, hothers b hbb]

/-! ## The reversal of the journal -/

/-- The journal of a posting from `s₀` to `s₁`, as it stands in `s₂`. -/
structure Journalled (s₀ s₁ s₂ : Books) (k : ℕ) (j : JournalEntry) : Prop where
  find : s₂.journals.find? k = some j
  original : j.reversalOfId = none
  found : ∀ e ∈ j.ledgerEntries, ∃ a, s₂.accounts.find? e.accountId = some a
  rialBalanced : DoubleEntry.Balanced LedgerEntry.side LedgerEntry.amountRial j.ledgerEntries
  gramsBalanced : DoubleEntry.Balanced LedgerEntry.side LedgerEntry.amountGrams j.ledgerEntries
  rial : ∀ x, balanceAt .rial s₁ x = balanceAt .rial s₀ x + moved .rial s₂ j.ledgerEntries x
  grams : ∀ x, balanceAt .grams s₁ x = balanceAt .grams s₀ x + moved .grams s₂ j.ledgerEntries x

/-- The journal of a confirmation can still be found. -/
theorem Posted.journalled {s₀ s₁ s₂ : OfficeDb} {id : ℕ} {params : JournalInput}
    {posted : List PostedLine} (h : Posted s₀ s₁ params posted) (hbetween : Between id s₁ s₂) :
    ∃ j, Journalled s₀.books s₁.books s₂.books s₀.books.journals.next j := by
  obtain ⟨hposting, hfits, horiginal, hbooks⟩ := h
  have hfind : ∃ j, s₁.books.journals.find? s₀.books.journals.next = some j ∧
      j.ledgerEntries = posted.map ledgerEntry ∧ j.reversalOfId = none := by
    rw [hbooks]
    exact ⟨_, Table.find?_create_self _ _ _, rfl, horiginal⟩
  obtain ⟨j₁, hj₁, hentries₁, hnone₁⟩ := hfind
  obtain ⟨j, hj, hentries, hnone⟩ := hbetween.journals _ _ hj₁
  have hentry : j.ledgerEntries = posted.map ledgerEntry := hentries.trans hentries₁
  -- every account of the journal is still there, under its code
  have haccount : ∀ e ∈ posted.map ledgerEntry, ∃ a a', s₀.books.accounts.find? e.accountId = some a ∧
      s₂.books.accounts.find? e.accountId = some a' ∧ a'.code = a.code := by
    intro e he
    obtain ⟨x, hx, rfl⟩ := List.mem_map.mp he
    have hfind₀ := hposting.find?_account hx
    have hfind₁ : s₁.books.accounts.find? x.account.id = some (posted.foldl receive x.account) := by
      rw [hbooks]
      refine (find?_updateBalances posted s₀.books.accounts x.account.id).trans ?_
      rw [hfind₀]
      rfl
    obtain ⟨a', ha', hcode⟩ := hbetween.accounts _ _ hfind₁
    obtain ⟨rial, grams, hreceive⟩ := foldl_receive posted x.account
    rw [hreceive] at hcode
    exact ⟨x.account, a', hfind₀, ha', hcode⟩
  have hcodes : ∀ e ∈ posted.map ledgerEntry,
      s₂.books.codeOf e.accountId = s₀.books.codeOf e.accountId := by
    intro e he
    obtain ⟨a, a', ha, ha', hcode⟩ := haccount e he
    rw [Books.codeOf, Books.codeOf, ha, ha', Option.map_some, Option.map_some, hcode]
  refine ⟨j, hj, hnone.trans hnone₁, ?_, ?_, ?_, fun x => ?_, fun x => ?_⟩
  · rw [hentry]
    intro e he
    obtain ⟨-, a', -, ha', -⟩ := haccount e he
    exact ⟨a', ha'⟩
  · rw [hentry]
    exact (balanced_entries .rial hposting fun l hl => (hfits l hl).1).2
  · rw [hentry]
    exact (balanced_entries .grams hposting fun l hl => (hfits l hl).2).2
  · rw [hentry, moved_congr .rial hcodes, hbooks]
    exact balanceAt_write .rial hposting (fun l hl => (hfits l hl).1) x
  · rw [hentry, moved_congr .grams hcodes, hbooks]
    exact balanceAt_write .grams hposting (fun l hl => (hfits l hl).2) x

/-- What the reversal of a journal of `s₂` has done to a state with these books. -/
theorem reverseJournal_spec {b₀ b₁ : Books} {k : ℕ} {j : JournalEntry} {opts : ReversalOptions}
    {link : ℕ → OfficeDb → OfficeDb} (h : Journalled b₀ b₁ s.books k j) :
    ((∃ t, (OfficeStmt.reverseJournal k opts link).Ok s () t) ↔
      AccountsActive s.books j.ledgerEntries ∧ NotReversed s.books k) ∧
    ∀ t, (OfficeStmt.reverseJournal k opts link).Ok s () t → ∃ b n,
      t = link n (s.setStore (s.store.setBooks b)) ∧
      (∀ x, balanceAt .rial b x - balanceAt .rial s.books x =
        -(balanceAt .rial b₁ x - balanceAt .rial b₀ x)) ∧
      ∀ x, balanceAt .grams b x - balanceAt .grams s.books x =
        -(balanceAt .grams b₁ x - balanceAt .grams b₀ x) := by
  have hid : j.id = k := Table.key_of_find? h.find
  have hadmits := (@checkJournal_reversal _ _ opts) h.rialBalanced h.gramsBalanced h.found
  rw [hid] at hadmits
  constructor
  · rw [← hadmits]
    constructor
    · rintro ⟨t, ht⟩
      obtain ⟨original, horiginal, -, hpost⟩ := OfficeStmt.ok_reverseJournal.mp ht
      rw [h.find, Option.some.injEq] at horiginal
      subst horiginal
      obtain ⟨posted, hcheck, -⟩ := OfficeStmt.ok_postJournal.mp hpost
      exact ⟨posted, hcheck⟩
    · rintro ⟨posted, hcheck⟩
      exact ⟨_, OfficeStmt.ok_reverseJournal.mpr ⟨j, h.find, h.original,
        OfficeStmt.ok_postJournal.mpr ⟨posted, hcheck, rfl⟩⟩⟩
  · intro t ht
    obtain ⟨original, horiginal, -, hpost⟩ := OfficeStmt.ok_reverseJournal.mp ht
    rw [h.find, Option.some.injEq] at horiginal
    subst horiginal
    obtain ⟨posted, hcheck, rfl⟩ := OfficeStmt.ok_postJournal.mp hpost
    have hposting := (checkJournal_ok hcheck).1
    refine ⟨_, _, rfl, fun x => ?_, fun x => ?_⟩
    · rw [h.rial, Stmt.writeJournal, balanceAt_reversal .rial hposting h.found fun _ h _ => h]
      ring
    · rw [h.grams, Stmt.writeJournal, balanceAt_reversal .grams hposting h.found fun _ _ h => h]
      ring

/-! ## The refund -/

/-- The options of the reversal in a refund. -/
def reversalOptions (o : PartnerOrder) (partner : SalesPartner) (reason : String)
    (adminId : Option ℕ) : ReversalOptions where
  description := some s!"استرداد سفارش شریک {o.orderNumber} ({partner.name}) — {reason}"
  createdByAdminId := adminId

theorem linked_id (journalId : ℕ) (r : PartnerOrder) :
    ({ r with refundJournalId := some journalId } : PartnerOrder).id = r.id :=
  rfl

/-- The order takes the id of the reversing journal. -/
def linkRefund (o : PartnerOrder) (journalId : ℕ) (t : OfficeDb) : OfficeDb :=
  t.setPartnerOrders (t.partnerOrders.update o.id
    (fun r => { r with refundJournalId := some journalId }) (linked_id journalId))

/-- The line of a refund in the ledger of the partner. -/
def refundLine (o : PartnerOrder) : PartyLedgerService.PartyLedgerInput where
  partyId := o.partnerId
  type := "REFUND"
  creditRial := o.netReceivableRial
  referenceType := some "PARTNER_ORDER"
  referenceId := some o.id

/-- The steps of a refund of a confirmed order. -/
theorem ok_refundOrder {id k : ℕ} {reason : String} (ho : s.partnerOrders.find? id = some o)
    (hpartner : s.partners.find? o.partnerId = some partner)
    (hstatus : o.status = .confirmed ∨ o.status = .settled) (hk : o.confirmJournalId = some k) :
    (refundOrder id reason adminId).Ok s false t ↔
      ∃ t₁, (takeBack o partner).Ok s () t₁ ∧
      ∃ t₂, (OfficeStmt.reverseJournal k (reversalOptions o partner reason adminId)
        (linkRefund o)).Ok t₁ () t₂ ∧
      ∃ n t₃, (PartyLedgerService.post (refundLine o)).Ok t₂ n t₃ ∧
      (OfficeStmt.update OfficeDb.partnerOrderRows id fun r =>
        { r with status := .refunded, cancelReason := some reason }).Ok
          (t₃.note (.refunds o.id)) () t := by
  have hne : o.status ≠ .refunded := by
    rcases hstatus with h | h <;> simp [h]
  have hcheck : (o.status == .confirmed || o.status == .settled) = true := by simpa using hstatus
  simp only [refundOrder, Block.ok_bind, ok_lock, ho, hpartner, hne, hcheck, hk, if_false,
    Prod.exists, Block.ok_check, Block.ok_getOrFail, Block.ok_mark, Block.ok_pure,
    OfficeDb.history_record, existsAndEq, true_and, and_true, Option.some.injEq,
    Unique.exists_iff, PUnit.default_eq_unit, reversalOptions, refundLine]
  rfl

/-- The order of a confirmation, as it stands at the time of the refund. -/
theorem Between.order_of_confirmed {id : ℕ} {s₀ s₁ s₂ : OfficeDb} {o₀ o₂ : PartnerOrder}
    (hbetween : Between id s₁ s₂) (hid : o₀.id = id) (hconfirmed : Confirmed o₀ partner m s₀ s₁)
    (ho : s₂.partnerOrders.find? id = some o₂) :
    (o₂.status = .confirmed ∨ o₂.status = .settled) ∧ o₂.confirmedAt = some m.confirmedAt ∧
      o₂.confirmJournalId = some s₀.books.journals.next ∧ o₂.partnerId = o₀.partnerId ∧
      o₂.netReceivableRial = o₀.netReceivableRial ∧ Delivered o₂ m s₀ s₁ := by
  obtain ⟨transactionId, dueDate, ho₁⟩ := hconfirmed.order
  rw [hid] at ho₁
  obtain ⟨o', ho', hcases⟩ := hbetween.order _ ho₁
  obtain rfl := Option.some.inj (ho'.symm.trans ho)
  have hdelivered := hconfirmed.delivered
  rcases hcases with rfl | ⟨n, rfl⟩
  · refine ⟨.inl rfl, rfl, rfl, rfl, rfl, ?_⟩
    cases hdelivered with
    | melted hkind hgold hbars => exact .melted hkind hgold hbars
    | bullion hkind hgold barId hbar hbefore hafter hothers =>
      exact .bullion hkind hgold barId hbar hbefore hafter hothers
  · refine ⟨.inr rfl, rfl, rfl, rfl, rfl, ?_⟩
    cases hdelivered with
    | melted hkind hgold hbars => exact .melted hkind hgold hbars
    | bullion hkind hgold barId hbar hbefore hafter hothers =>
      exact .bullion hkind hgold barId hbar hbefore hafter hothers

/-- What was taken back and can be reversed is refunded, and everything is restored. -/
theorem refund_restores {id k : ℕ} {j : JournalEntry} {reason : String} {s₀ s₁ s₂ t₁ : OfficeDb}
    (hcons : Consistent s₂) (ho : s₂.partnerOrders.find? id = some o)
    (hpartner : s₂.partners.find? o.partnerId = some partner)
    (htaken : TakenBack s₀ s₁ s₂ t₁) (hj : Journalled s₀.books s₁.books t₁.books k j)
    (hadmits : AccountsActive t₁.books j.ledgerEntries ∧ NotReversed t₁.books k)
    (hbalance : ∀ p, s₁.partnerBalance p =
      s₀.partnerBalance p + if p = o.partnerId then o.netReceivableRial else 0) :
    ∃ t₂, (OfficeStmt.reverseJournal k (reversalOptions o partner reason adminId)
        (linkRefund o)).Ok t₁ () t₂ ∧
      ∃ n t₃, (PartyLedgerService.post (refundLine o)).Ok t₂ n t₃ ∧
      ∃ s₃, (OfficeStmt.update OfficeDb.partnerOrderRows id fun r =>
        { r with status := .refunded, cancelReason := some reason }).Ok
          (t₃.note (.refunds o.id)) () s₃ ∧ Restored s₀ s₁ s₂ s₃ := by
  obtain ⟨t₂, ht₂⟩ : ∃ t₂, (OfficeStmt.reverseJournal k
      (reversalOptions o partner reason adminId) (linkRefund o)).Ok t₁ () t₂ :=
    (reverseJournal_spec hj).1.mpr hadmits
  obtain ⟨b, n, hstate, hrial, hgrams⟩ := (reverseJournal_spec hj).2 t₂ ht₂
  -- the line of the partner's ledger
  have hpartner₂ : t₂.partners.find? o.partnerId = some partner := by
    rw [hstate]
    exact (congrArg (fun T => T.find? o.partnerId) htaken.partners).trans hpartner
  have hnew : t₂.partyLedger.find? t₂.store.nextId = none := by
    rw [hstate]
    exact (congrArg (fun T => T.find? t₁.store.nextId) htaken.partyLedger).trans
      (hcons.partyLedger _ htaken.supply)
  obtain ⟨t₃, ht₃⟩ : ∃ t₃, (PartyLedgerService.post (refundLine o)).Ok t₂ t₂.store.nextId t₃ :=
    ⟨_, PartyLedgerService.ok_post.mpr ⟨partner, hpartner₂, rfl, hnew, rfl⟩⟩
  obtain ⟨hbooks₃, horders₃, hgold₃, hbars₃, -, hbalance₃⟩ := post_effect ht₃
  have horder₃ : ∃ r, t₃.partnerOrders.find? id = some r := by
    rw [horders₃, hstate]
    simp only [linkRefund, OfficeDb.setPartnerOrders_partnerOrders, OfficeDb.setStore_partnerOrders,
      htaken.orders, Table.update, Table.find?_updateWhere, ho]
    exact ⟨_, rfl⟩
  refine ⟨t₂, ht₂, _, t₃, ht₃, _, OfficeStmt.ok_update.mpr ⟨horder₃, rfl⟩, fun u => ?_,
    fun b' hb => ?_, fun p => ?_, fun x => ?_, fun x => ?_⟩
  · rw [← htaken.gold u]
    refine congrArg (· - s₂.goldOf u) ((hgold₃ u).trans ?_)
    rw [hstate]
    rfl
  · rw [← htaken.bars b' hb]
    refine (hbars₃ b').trans ?_
    rw [hstate]
    rfl
  · have hbalance₂ : t₂.partnerBalance p = s₂.partnerBalance p := by
      rw [hstate]
      exact congrArg (fun T => ((T.find? p).map SalesPartner.balanceRial).getD 0) htaken.partners
    have hpost : t₃.partnerBalance p =
        s₂.partnerBalance p + if p = o.partnerId then 0 - o.netReceivableRial else 0 := by
      rw [hbalance₃ p, hbalance₂]
      rfl
    rw [hbalance p]
    refine (congrArg (· - s₂.partnerBalance p) hpost).trans ?_
    split <;> ring
  · rw [← hrial x, htaken.books]
    refine congrArg (balanceAt .rial · x - _) (hbooks₃.trans ?_)
    rw [hstate]
    rfl
  · rw [← hgrams x, htaken.books]
    refine congrArg (balanceAt .grams · x - _) (hbooks₃.trans ?_)
    rw [hstate]
    rfl

/-- **A refund undoes its confirmation**: whatever others have posted in between, the refund of
an order whose delivery is still held succeeds and restores everything if and only if the
books admit the reversal and, for a bar, the ownership was not created before the instant that
the order records as that of its confirmation. -/
theorem refund_undoes_confirm {id : ℕ} {reason : String} {adminId' : Option ℕ}
    {s₀ s₁ s₂ : OfficeDb} (hconfirm : (confirm id adminId m).Returns s₀ false s₁)
    (hbetween : Between id s₁ s₂) (hcons : Consistent s₂)
    (ho : s₂.partnerOrders.find? id = some o) (hheld : StillHeld o s₁ s₂) :
    (∃ s₃, (refund id reason adminId').Returns s₂ false s₃ ∧ Restored s₀ s₁ s₂ s₃) ↔
      (o.productKind = .meltedGold ∨ m.confirmedAt ≤ m.ownedAt) ∧ Reversible s₂ o := by
  rw [confirm, Call.returns_transaction] at hconfirm
  obtain ⟨o₀, partner₀, ho₀, hpartner₀, -, hconfirmed⟩ := confirmOrder_ok hconfirm
  have hid₀ : o₀.id = id := Table.key_of_find? ho₀
  have hpid : partner₀.id = o₀.partnerId := Table.key_of_find? hpartner₀
  obtain ⟨hstatus, hat, hk, hpartnerId, hnet, hdelivered⟩ :=
    hbetween.order_of_confirmed hid₀ hconfirmed ho
  obtain ⟨q, hq⟩ := hconfirmed.partners _ _ hpartner₀
  obtain ⟨partner, hpartner⟩ := hbetween.partners _ _ hq
  rw [← hpartnerId] at hpartner
  obtain ⟨params, posted, hposted⟩ := hconfirmed.posted
  obtain ⟨j, hj⟩ := hposted.journalled hbetween
  obtain ⟨htotal, htake⟩ := (@takeBack_spec _ _ partner) hdelivered hat hcons hheld
  have hreversible : Reversible s₂ o ↔
      AccountsActive s₂.books j.ledgerEntries ∧ NotReversed s₂.books s₀.books.journals.next := by
    constructor
    · rintro ⟨k, j', hk', hj', hadmits⟩
      obtain rfl := Option.some.inj (hk.symm.trans hk')
      obtain rfl := Option.some.inj (hj.find.symm.trans hj')
      exact hadmits
    · exact fun hadmits => ⟨_, j, hk, hj.find, hadmits⟩
  simp only [refund, Call.returns_transaction, ok_refundOrder ho hpartner hstatus hk]
  rw [hreversible]
  constructor
  · rintro ⟨s₃, ⟨t₁, ht₁, t₂, ht₂, -⟩, -⟩
    have hbooks := (htake t₁ ht₁).books
    rw [← hbooks] at hj ⊢
    exact ⟨htotal.mp ⟨t₁, ht₁⟩, (reverseJournal_spec hj).1.mp ⟨t₂, ht₂⟩⟩
  · rintro ⟨hcond, hadmits⟩
    obtain ⟨t₁, ht₁⟩ := htotal.mpr hcond
    have htaken := htake t₁ ht₁
    rw [← htaken.books] at hj hadmits
    have hbalance : ∀ p, s₁.partnerBalance p =
        s₀.partnerBalance p + if p = o.partnerId then o.netReceivableRial else 0 := by
      intro p
      rw [hconfirmed.balance p, hnet, hpartnerId, hpid]
    obtain ⟨t₂, ht₂, n, t₃, ht₃, s₃, hs₃, hrestored⟩ :=
      refund_restores hcons ho hpartner htaken hj hadmits hbalance
    exact ⟨s₃, ⟨t₁, ht₁, t₂, ht₂, n, t₃, ht₃, hs₃⟩, hrestored⟩

/-! ## A bar that nobody has touched -/

/-- A pending order of a bar for a thousand rials. -/
def barOrder : PartnerOrder where
  id := 4
  orderNumber := "AG-1404-PTO-000001"
  partnerId := 1
  externalRef := "r"
  userId := 2
  productKind := .bullion
  status := .pending
  amountGrams := 10000
  hologramCodeId := some 3
  pricePerGramRial := 1000
  goldValueRial := 1000
  wageRial := 0
  feeRial := 0
  taxRial := 0
  totalRial := 1000
  commissionRial := 0
  netReceivableRial := 1000
  dueDate := none
  settlementId := none
  confirmJournalId := none
  refundJournalId := none
  transactionId := none
  createdViaApi := false
  confirmedAt := none
  cancelReason := none
  createdAt := 0

/-- A bar in the vault. -/
def vaultBar : HologramCode where
  id := 3
  code := "AG1"
  status := .unassigned
  productId := none
  variantId := none
  weightGrams := some 10000
  purityKarat := some .k24
  factorySerialNumber := none
  mintedAt := none
  shopOrderItemId := none
  assignedByAdminId := none
  assignedAt := none
  revokedByAdminId := none
  revokedAt := none
  revokeReason := none
  agentId := none
  agentAllocatedAt := none
  agentPremiumRial := none
  vaultCodedAt := none

/-- A partner without a limit. -/
def somePartner : SalesPartner where
  id := 1
  code := "P"
  name := "P"
  status := .active
  commissionPercent := 0
  commissionFixedRial := 0
  settlementDays := 0
  creditLimitRial := none
  minOrderRial := none
  maxOrderRial := none
  allowedProducts := [.bullion]
  balanceRial := 0
  contractEndAt := none

/-- An office with that partner, bar and order. -/
def barOffice : OfficeDb :=
  { OfficeDb.opening (Chart.opening ["1050", "4040", "5060", "1025"]) 0 with
    bars := ⟨[vaultBar], 4, by decide, by decide⟩
    partners := ⟨[somePartner], 2, by decide, by decide⟩
    partnerOrders := ⟨[barOrder], 5, by decide, by decide⟩ }

/-- The state once the order is confirmed, at the instant `ownedAt` of the database and `2` of
the service. -/
def barSold (ownedAt : ℤ) : OfficeDb := ((confirm 4 none ⟨ownedAt, 2⟩).exec barOffice).2

/-- The order once it is confirmed. -/
def soldOrder : PartnerOrder :=
  { barOrder with
    status := .confirmed
    confirmedAt := some 2
    dueDate := some 2
    confirmJournalId := some 0 }

theorem Between.refl (id : ℕ) (s : OfficeDb) : Between id s s :=
  ⟨fun o h => ⟨o, h, .inl rfl⟩, fun _ q h => ⟨q, h⟩, fun _ j h => ⟨j, h, rfl, rfl⟩,
    fun _ a h => ⟨a, h, rfl⟩⟩

theorem consistent_barSold (ownedAt : ℤ)
    (hnext : (barSold ownedAt).store.transactions.next ≤ (barSold ownedAt).store.nextId ∧
      (barSold ownedAt).partyLedger.next ≤ (barSold ownedAt).store.nextId)
    (hwallets : (barSold ownedAt).store.wallets.rows = []) : Consistent (barSold ownedAt) :=
  ⟨fun _ hn => Table.find?_ge_next (hnext.1.trans hn),
    fun _ hn => Table.find?_ge_next (hnext.2.trans hn), by simp [hwallets]⟩

/-- `refund_undoes_confirm` for a bar whose ownership was created in the very millisecond of
the confirmation. -/
theorem refund_undoes_confirm_sameInstant :
    (∃ s₃, (refund 4 "" none).Returns (barSold 2) false s₃ ∧
        Restored barOffice (barSold 2) (barSold 2) s₃) ↔
      (soldOrder.productKind = .meltedGold ∨ (2 : ℤ) ≤ 2) ∧ Reversible (barSold 2) soldOrder :=
  (@refund_undoes_confirm _ _ ⟨2, 2⟩ _ _ _ _ (barSold 2)) (Call.returns_of_eq (by decide +kernel))
    (Between.refl 4 _) (consistent_barSold 2 (by decide +kernel) (by decide +kernel))
    (by decide +kernel) fun _ _ => rfl

/-- The ownership is created, a millisecond later the order is confirmed, nothing else happens,
and the refund is refused. -/
theorem untouched_bar_is_not_refunded :
    (confirm 4 none ⟨1, 2⟩).Returns barOffice false (barSold 1) ∧ Between 4 (barSold 1) (barSold 1) ∧
      Consistent (barSold 1) ∧ (barSold 1).partnerOrders.find? 4 = some soldOrder ∧
      StillHeld soldOrder (barSold 1) (barSold 1) ∧
      ¬∃ a s₃, (refund 4 "" none).Returns (barSold 1) a s₃ := by
  refine ⟨Call.returns_of_eq (by decide +kernel), Between.refl 4 _,
    consistent_barSold 1 (by decide +kernel) (by decide +kernel), by decide +kernel, fun _ _ => rfl,
    ?_⟩
  rintro ⟨a, s₃, h⟩
  have hfails : ((refund 4 "" none).exec (barSold 1)).1.isOk = false := by decide +kernel
  rw [show (refund 4 "" none).exec (barSold 1) = (.ok a, s₃) from h] at hfails
  cases hfails

end PartnerOrdersService

end ArkanGold
