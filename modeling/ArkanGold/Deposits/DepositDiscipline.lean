import ArkanGold.Accounting.ControlAccount
import ArkanGold.Deposits.DepositService

/-!
# What the deposit services commit

A commit is a `DepositStep`: it opens a request, or takes one request along a pair of
`TRANSITIONS`; with the approval, and only with it, the wallet is credited, a journal is
posted and the proforma is consumed. The lock of a request keeps its row until then.

Two things are left to the condition on the marks (`ReceiptsInTime`). Whether a request may
still get a receipt is checked before the transaction of the upload only. And a new receipt
that is asked for is one that no upload can deliver.
-/

namespace ArkanGold

open AccountingService DepositState

namespace OfficeDb

/-- A mark about deposits. -/
def isDepositMark : OfficeMark → Bool
  | .uploads _ | .rejects _ | .asksReceipt _ => true
  | _ => false

/-- The marks about deposits. -/
def depositMarks (s : OfficeDb) : List OfficeMark := s.history.filter isDepositMark

/-- The rials of a wallet. -/
def walletRial (s : OfficeDb) (id : ℕ) : ℤ :=
  ((s.store.wallets.find? id).map Wallet.rialBalance).getD 0

/-- The rials of the APPROVED requests for a wallet. -/
def approvedRial (s : OfficeDb) (walletId : ℕ) : ℤ :=
  s.deposits.sum fun d => if d.status = .approved ∧ d.walletId = walletId then d.amountRial else 0

/-- The entries of the journals of a request. -/
def depositEntries (s : OfficeDb) (id : ℕ) : List (List LedgerEntry) :=
  (s.books.journals.rows.filter fun j =>
    j.referenceType == some "DEPOSIT" && j.referenceId == some id).map JournalEntry.ledgerEntries

end OfficeDb

namespace DepositService

variable {s s' s'' : OfficeDb} {d d' : DepositRequest}

/-! ## Steps -/

/-- The bank is debited and account 2010 credited with the amount of the request. -/
def PaysIn (b : Books) (d : DepositRequest) (entries : List LedgerEntry) : Prop :=
  ∃ cashCode, cashCode.startsWith CASH_ROOT_CODE = true ∧
    entries.map (fun e => (b.codeOf e.accountId, e.side, e.amountRial, e.amountGrams)) =
      [(some cashCode, .debit, d.amountRial, 0), (some "2010", .credit, d.amountRial, 0)]

/-- Accounts keep their codes, wallets their owners. -/
structure Accounts (s s' : OfficeDb) : Prop where
  chart : ChartKept s.books s'.books
  owners : ∀ k w, s.store.wallets.find? k = some w →
    ∃ w', s'.store.wallets.find? k = some w' ∧ w'.userId = w.userId

/-- Nothing is paid in. -/
structure Unpaid (s s' : OfficeDb) : Prop where
  rial : ∀ k, s'.walletRial k = s.walletRial k
  entries : ∀ n, s'.depositEntries n = s.depositEntries n

/-- The request is paid in. -/
structure PaidIn (d : DepositRequest) (s s' : OfficeDb) : Prop where
  rial : ∀ k, s'.walletRial k = s.walletRial k + if d.walletId = k then d.amountRial else 0
  entries : ∃ entries, PaysIn s'.books d entries ∧
    ∀ n, s'.depositEntries n = s.depositEntries n ++ if n = d.id then [entries] else []

/-- The proformas are there, and CONSUMED as before, those of `others` apart. -/
def ProformasKept (others : Option ℕ) (s s' : OfficeDb) : Prop :=
  ∀ p i, s.invoices.find? p = some i → ∃ i', s'.invoices.find? p = some i' ∧
    (others ≠ some p → (i'.status = .consumed ↔ i.status = .consumed))

/-- What a request is for. -/
structure SameRequest (d d' : DepositRequest) : Prop where
  id : d'.id = d.id
  userId : d'.userId = d.userId
  walletId : d'.walletId = d.walletId
  amountRial : d'.amountRial = d.amountRial
  proforma : d'.proformaInvoiceId = d.proformaInvoiceId

/-- The mark of a request that comes to a status. -/
def markFor (id : ℕ) : DepositStatus → List OfficeMark
  | .receiptUploaded => [.uploads id]
  | .rejected => [.rejects id]
  | _ => []

/-- A request is taken along a transition. -/
structure Taken (d d' : DepositRequest) (s s' : OfficeDb) : Prop where
  before : s.deposits.find? d.id = some d
  after : ∃ f hf, s'.deposits = s.deposits.update d.id f hf ∧ f d = d'
  same : SameRequest d d'
  legal : canTransition d.status d'.status = true
  count : d'.rejectionCount = d.rejectionCount + if d'.status = .rejected then 1 else 0
  inTime : d'.status = .receiptUploaded → d.rejectionCount < MAX_REJECTIONS
  marks : s'.depositMarks = s.depositMarks ++ markFor d.id d'.status
  money : if d'.status = .approved then PaidIn d s s' else Unpaid s s'
  proformas : ProformasKept d.proformaInvoiceId s s'
  proforma : ∀ p i', d.proformaInvoiceId = some p → s'.invoices.find? p = some i' →
    if d'.status = .approved then i'.status = .consumed
    else i'.status = .consumed → ∃ i, s.invoices.find? p = some i ∧ i.status = .consumed

/-- A request is opened, with a proforma of its own if it has one. -/
structure Opened (d : DepositRequest) (s s' : OfficeDb) : Prop where
  new : s.deposits.find? d.id = none
  after : s'.deposits = s.deposits.insert d
  pending : d.status = .pendingPayment
  count : d.rejectionCount = 0
  owned : ∃ w, s'.store.wallets.find? d.walletId = some w ∧ w.userId = d.userId
  marks : s'.depositMarks = s.depositMarks
  money : Unpaid s s'
  proformas : ProformasKept none s s'
  proforma : ∀ p, d.proformaInvoiceId = some p → s.invoices.find? p = none ∧
    ∃ i, s'.invoices.find? p = some i ∧ i.status ≠ .consumed

/-- Nothing happens to the requests. -/
structure Idle (s s' : OfficeDb) : Prop where
  deposits : s'.deposits = s.deposits
  marks : s'.depositMarks = s.depositMarks
  money : Unpaid s s'
  proformas : ProformasKept none s s'

/-- What a step does to the requests. -/
inductive DepositChange (s s' : OfficeDb) : Prop where
  | idle (h : Idle s s')
  | opened (d : DepositRequest) (h : Opened d s s')
  | taken (d d' : DepositRequest) (h : Taken d d' s s')

/-- What a commit does. -/
structure DepositStep (s s' : OfficeDb) : Prop where
  accounts : Accounts s s'
  supply : s.store.nextId ≤ s'.store.nextId
  change : DepositChange s s'

/-- What a lock protects: the row of a request, or the absence of a row whose id was drawn. -/
def depositFrame (r : OfficeRow) (s s' : OfficeDb) : Prop :=
  match r with
  | .deposit k => ∀ d, s.deposits.find? k = some d → s'.deposits.find? k = some d
  | .store (.own n) => n < s.store.nextId ∧ s.deposits.find? n = none →
      n < s'.store.nextId ∧ s'.deposits.find? n = none
  | _ => True

/-- An upload finds the request as its check did, and nobody asks for a new receipt. -/
def ReceiptsInTime : OfficeMark → OfficeDb → Prop
  | .uploads id, s => ∀ d, s.deposits.find? id = some d → d.rejectionCount < MAX_REJECTIONS
  | .asksReceipt _, _ => False
  | _, _ => True

theorem Accounts.refl (s : OfficeDb) : Accounts s s := ⟨.refl _, fun _ w h => ⟨w, h, rfl⟩⟩

theorem Accounts.trans (h : Accounts s s') (h' : Accounts s' s'') : Accounts s s'' := by
  refine ⟨h.chart.trans h'.chart, fun k w hw => ?_⟩
  obtain ⟨w₁, hw₁, huser₁⟩ := h.owners k w hw
  obtain ⟨w₂, hw₂, huser₂⟩ := h'.owners k w₁ hw₁
  exact ⟨w₂, hw₂, huser₂.trans huser₁⟩

theorem Unpaid.refl (s : OfficeDb) : Unpaid s s := ⟨fun _ => rfl, fun _ => rfl⟩

theorem proformasKept_refl (others : Option ℕ) (s : OfficeDb) : ProformasKept others s s :=
  fun _ i h => ⟨i, h, fun _ => Iff.rfl⟩

theorem SameRequest.refl (d : DepositRequest) : SameRequest d d := ⟨rfl, rfl, rfl, rfl, rfl⟩

theorem SameRequest.trans {d'' : DepositRequest} (h : SameRequest d d') (h' : SameRequest d' d'') :
    SameRequest d d'' :=
  ⟨h'.id.trans h.id, h'.userId.trans h.userId, h'.walletId.trans h.walletId,
    h'.amountRial.trans h.amountRial, h'.proforma.trans h.proforma⟩

theorem idle_refl (s : OfficeDb) : Idle s s :=
  ⟨rfl, rfl, .refl s, proformasKept_refl _ s⟩

theorem depositFrame_refl (r : OfficeRow) (s : OfficeDb) : depositFrame r s s := by
  unfold depositFrame
  split
  · exact fun _ h => h
  · exact fun h => h
  · trivial

theorem depositFrame_trans (r : OfficeRow) (s s' s'' : OfficeDb) (h : depositFrame r s s')
    (h' : depositFrame r s' s'') : depositFrame r s s'' := by
  unfold depositFrame at *
  split at h
  · exact fun d hd => h' d (h d hd)
  · exact fun hn => h' (h hn)
  · trivial

/-- The discipline of the deposits. -/
def depositDiscipline : Discipline OfficeRow OfficeMark OfficeDb where
  trans := DepositStep
  frame := depositFrame
  cond := ReceiptsInTime
  trans_refl s := ⟨.refl s, le_rfl, .idle (idle_refl s)⟩
  frame_refl := depositFrame_refl
  frame_trans := depositFrame_trans

/-! ## What a step makes of the rows -/

theorem Taken.find? (h : Taken d d' s s') (k : ℕ) :
    s'.deposits.find? k = if k = d.id then some d' else s.deposits.find? k := by
  obtain ⟨f, hf, hupdate, rfl⟩ := h.after
  rw [hupdate]
  split
  · rename_i hk
    rw [hk, Table.find?_update_self, h.before, Option.map_some]
  · rename_i hk
    exact Table.find?_update_of_ne _ hk f hf

theorem Taken.find?_self (h : Taken d d' s s') : s'.deposits.find? d.id = some d' := by
  rw [h.find?, if_pos rfl]

theorem Opened.find? (h : Opened d s s') (k : ℕ) :
    s'.deposits.find? k = if k = d.id then some d else s.deposits.find? k := by
  rw [h.after]
  split
  · rename_i hk
    rw [hk, Table.find?_insert_self h.new]
  · rename_i hk
    exact Table.find?_insert_of_ne _ hk

/-- What a request is for stays, and its status moves along a transition. -/
theorem DepositChange.kept (h : DepositChange s s') {k : ℕ} (hd : s.deposits.find? k = some d) :
    ∃ d', s'.deposits.find? k = some d' ∧ SameRequest d d' ∧
      (d'.status = d.status ∨ canTransition d.status d'.status = true) := by
  cases h with
  | idle h => exact ⟨d, h.deposits ▸ hd, .refl d, .inl rfl⟩
  | opened d₀ h =>
    refine ⟨d, ?_, .refl d, .inl rfl⟩
    rw [h.find?, if_neg, hd]
    rintro rfl
    rw [h.new] at hd
    cases hd
  | taken d₀ d₀' h =>
    rw [h.find?]
    split
    · rename_i hk
      rw [hk, h.before, Option.some.injEq] at hd
      subst hd
      exact ⟨d₀', rfl, h.same, .inr h.legal⟩
    · exact ⟨d, hd, .refl d, .inl rfl⟩

/-- The amounts of the APPROVED requests. -/
theorem Taken.approvedRial (h : Taken d d' s s') (k : ℕ) :
    s'.approvedRial k = s.approvedRial k +
      if d'.status = .approved ∧ d.walletId = k then d.amountRial else 0 := by
  obtain ⟨f, hf, hupdate, rfl⟩ := h.after
  have hopen : d.status ≠ .approved := by
    intro hstatus
    have hlegal := h.legal
    rw [hstatus] at hlegal
    exact absurd hlegal (by simp [canTransition, TRANSITIONS])
  rw [OfficeDb.approvedRial, hupdate, Table.sum_update s.deposits h.before f hf]
  simp [OfficeDb.approvedRial, hopen, h.same.walletId, h.same.amountRial]

theorem Opened.approvedRial (h : Opened d s s') (k : ℕ) :
    s'.approvedRial k = s.approvedRial k := by
  rw [OfficeDb.approvedRial, h.after, Table.sum_insert h.new]
  simp [OfficeDb.approvedRial, h.pending]

/-! ## What stays -/

/-- What a session can count on, whatever it has locked. -/
structure Kept (s s' : OfficeDb) : Prop where
  accounts : Accounts s s'
  supply : s.store.nextId ≤ s'.store.nextId
  requests : ∀ k d, s.deposits.find? k = some d →
    ∃ d', s'.deposits.find? k = some d' ∧ SameRequest d d'

theorem Kept.refl (s : OfficeDb) : Kept s s := ⟨.refl s, le_rfl, fun _ d h => ⟨d, h, .refl d⟩⟩

theorem Kept.trans (h : Kept s s') (h' : Kept s' s'') : Kept s s'' := by
  refine ⟨h.accounts.trans h'.accounts, h.supply.trans h'.supply, fun k d hd => ?_⟩
  obtain ⟨d₁, hd₁, hsame₁⟩ := h.requests k d hd
  obtain ⟨d₂, hd₂, hsame₂⟩ := h'.requests k d₁ hd₁
  exact ⟨d₂, hd₂, hsame₁.trans hsame₂⟩

theorem kept_step (h : DepositStep s s') : Kept s s' := by
  refine ⟨h.accounts, h.supply, fun k d hd => ?_⟩
  obtain ⟨d', hd', hsame, -⟩ := h.change.kept hd
  exact ⟨d', hd', hsame⟩

theorem kept_rely {held : List OfficeRow} (h : depositDiscipline.rely held s s') : Kept s s' :=
  Discipline.rely_of Kept.refl (fun _ _ _ => Kept.trans) (fun _ _ => kept_step) h

theorem PaysIn.kept {b b' : Books} {entries : List LedgerEntry} (h : PaysIn b d entries)
    (hkept : ChartKept b b') : PaysIn b' d entries := by
  obtain ⟨cashCode, hcash, hentries⟩ := h
  refine ⟨cashCode, hcash, ?_⟩
  rw [← hentries]
  refine List.map_congr_left fun e he => ?_
  have hmem : (b.codeOf e.accountId, e.side, e.amountRial, e.amountGrams) ∈
      entries.map fun e => (b.codeOf e.accountId, e.side, e.amountRial, e.amountGrams) :=
    List.mem_map_of_mem he
  rw [hentries, List.mem_cons, List.mem_singleton] at hmem
  have hcode : ∃ code, b.codeOf e.accountId = some code := by
    rcases hmem with h | h
    · exact ⟨_, (Prod.mk.inj h).1⟩
    · exact ⟨_, (Prod.mk.inj h).1⟩
  obtain ⟨code, hcode⟩ := hcode
  rw [hkept _ _ hcode, hcode]

theorem PaysIn.same {b : Books} {entries : List LedgerEntry} (h : PaysIn b d entries)
    (hsame : SameRequest d d') : PaysIn b d' entries := by
  unfold PaysIn
  rw [hsame.amountRial]
  exact h

/-- What is paid in is balanced. -/
theorem PaysIn.balanced {b : Books} {entries : List LedgerEntry} (h : PaysIn b d entries) :
    DoubleEntry.Balanced LedgerEntry.side LedgerEntry.amountRial entries ∧
      DoubleEntry.Balanced LedgerEntry.side LedgerEntry.amountGrams entries := by
  obtain ⟨cashCode, -, hentries⟩ := h
  obtain ⟨e₁, e₂, rfl⟩ := List.length_eq_two.mp (by simpa using congrArg List.length hentries)
  simp only [List.map_cons, List.map_nil, List.cons.injEq, Prod.mk.injEq, and_true] at hentries
  obtain ⟨⟨-, hside₁, hrial₁, hgrams₁⟩, -, hside₂, hrial₂, hgrams₂⟩ := hentries
  constructor
  · simp [DoubleEntry.Balanced, DoubleEntry.total, hside₁, hside₂, hrial₁, hrial₂]
  · simp [DoubleEntry.Balanced, DoubleEntry.total, hside₁, hside₂, hgrams₁, hgrams₂]

/-! ## The invariant -/

/-- How often a request was rejected. -/
def rejectionsOf (s : OfficeDb) (id : ℕ) : ℕ := s.depositMarks.count (.rejects id)

/-- A request that may still be decided. -/
def isOpen : DepositStatus → Bool
  | .pendingPayment | .receiptUploaded | .underReview => true
  | _ => false

/-- What has been done with a request agrees with its row. -/
structure Stands (s : OfficeDb) (d : DepositRequest) : Prop where
  rejections : rejectionsOf s d.id = d.rejectionCount
  limit : d.rejectionCount ≤ MAX_REJECTIONS
  below : isOpen d.status = true → d.rejectionCount < MAX_REJECTIONS
  paid : if d.status = .approved then
      ∃ entries, s.depositEntries d.id = [entries] ∧ PaysIn s.books d entries
    else s.depositEntries d.id = []
  owned : ∃ w, s.store.wallets.find? d.walletId = some w ∧ w.userId = d.userId
  proforma : ∀ p, d.proformaInvoiceId = some p → ∃ i, s.invoices.find? p = some i ∧
    (i.status = .consumed ↔ d.status = .approved)

/-- No receipt comes after the last rejection that is allowed. -/
def UploadsInTime (marks : List OfficeMark) : Prop :=
  ∀ before after id, marks = before ++ .uploads id :: after →
    before.count (.rejects id) < MAX_REJECTIONS

/-- The invariant of the deposits, for a run from `s₀`. -/
structure Sound (s₀ s : OfficeDb) : Prop where
  wallets : ∀ k, s.walletRial k = s₀.walletRial k + s.approvedRial k
  stands : ∀ k d, s.deposits.find? k = some d → Stands s d
  distinct : ∀ k k' d d' p, s.deposits.find? k = some d → s.deposits.find? k' = some d' →
    d.proformaInvoiceId = some p → d'.proformaInvoiceId = some p → k = k'
  absent : ∀ k, s.deposits.find? k = none → rejectionsOf s k = 0 ∧ s.depositEntries k = []
  uploads : UploadsInTime s.depositMarks
  unasked : ∀ id, .asksReceipt id ∉ s.depositMarks

/-- A request stands as before if nothing was done with it. -/
theorem Stands.kept (h : Stands s d) (haccounts : Accounts s s')
    (hrejections : rejectionsOf s' d.id = rejectionsOf s d.id)
    (hentries : s'.depositEntries d.id = s.depositEntries d.id) {others : Option ℕ}
    (hproformas : ProformasKept others s s')
    (hothers : ∀ p, d.proformaInvoiceId = some p → others ≠ some p) : Stands s' d where
  rejections := hrejections.trans h.rejections
  limit := h.limit
  below := h.below
  paid := by
    have hpaid := h.paid
    rw [hentries]
    split
    · rename_i hstatus
      rw [if_pos hstatus] at hpaid
      obtain ⟨entries, hone, hpays⟩ := hpaid
      exact ⟨entries, hone, hpays.kept haccounts.chart⟩
    · rename_i hstatus
      rwa [if_neg hstatus] at hpaid
  owned := by
    obtain ⟨w, hw, huser⟩ := h.owned
    obtain ⟨w', hw', huser'⟩ := haccounts.owners _ w hw
    exact ⟨w', hw', huser'.trans huser⟩
  proforma := by
    intro p hp
    obtain ⟨i, hi, hiff⟩ := h.proforma p hp
    obtain ⟨i', hi', hsame⟩ := hproformas p i hi
    exact ⟨i', hi', (hsame (hothers p hp)).trans hiff⟩

theorem rejectionsOf_congr (h : s'.depositMarks = s.depositMarks) (k : ℕ) :
    rejectionsOf s' k = rejectionsOf s k := by
  rw [rejectionsOf, rejectionsOf, h]

theorem Sound.idle {s₀ : OfficeDb} (h : Sound s₀ s) (haccounts : Accounts s s') (hidle : Idle s s') :
    Sound s₀ s' := by
  have hrejections := rejectionsOf_congr hidle.marks
  refine ⟨fun k => ?_, fun k d hd => ?_, ?_, fun k hk => ?_, hidle.marks ▸ h.uploads,
    hidle.marks ▸ h.unasked⟩
  · rw [hidle.money.rial, h.wallets, OfficeDb.approvedRial, OfficeDb.approvedRial, hidle.deposits]
  · rw [hidle.deposits] at hd
    exact (h.stands k d hd).kept haccounts (hrejections _) (hidle.money.entries _) hidle.proformas
      fun _ _ => by simp
  · rw [hidle.deposits]
    exact h.distinct
  · rw [hidle.deposits] at hk
    rw [hrejections, hidle.money.entries]
    exact h.absent k hk

theorem Sound.opened {s₀ : OfficeDb} (h : Sound s₀ s) (haccounts : Accounts s s')
    (hopened : Opened d s s') : Sound s₀ s' := by
  have hrejections := rejectionsOf_congr hopened.marks
  have hfresh : ∀ k d₁ p, s.deposits.find? k = some d₁ → d₁.proformaInvoiceId = some p →
      d.proformaInvoiceId ≠ some p := by
    intro k d₁ p hd₁ hp₁ hp
    obtain ⟨i, hi, -⟩ := (h.stands k d₁ hd₁).proforma p hp₁
    rw [(hopened.proforma p hp).1] at hi
    cases hi
  refine ⟨fun k => ?_, fun k d₁ hd₁ => ?_, fun k k' d₁ d₁' p hd₁ hd₁' hp hp' => ?_, fun k hk => ?_,
    hopened.marks ▸ h.uploads, hopened.marks ▸ h.unasked⟩
  · rw [hopened.money.rial, h.wallets, hopened.approvedRial]
  · rw [hopened.find?] at hd₁
    split at hd₁
    · obtain rfl := Option.some.inj hd₁
      obtain ⟨hnone, hempty⟩ := h.absent d.id hopened.new
      refine ⟨?_, ?_, fun _ => ?_, ?_, hopened.owned, fun p hp => ?_⟩
      · rw [hrejections, hnone, hopened.count]
      · rw [hopened.count]
        exact Nat.zero_le _
      · rw [hopened.count]
        decide
      · rw [hopened.pending, if_neg (by decide), hopened.money.entries, hempty]
      · obtain ⟨-, i, hi, hstatus⟩ := hopened.proforma p hp
        exact ⟨i, hi, by simp [hstatus, hopened.pending]⟩
    · exact (h.stands k d₁ hd₁).kept haccounts (hrejections _) (hopened.money.entries _)
        hopened.proformas fun _ _ => by simp
  · rw [hopened.find?] at hd₁ hd₁'
    split at hd₁
    · split at hd₁'
      · rename_i hk hk'
        rw [hk, hk']
      · obtain rfl := Option.some.inj hd₁
        exact absurd hp (hfresh k' d₁' p hd₁' hp')
    · split at hd₁'
      · obtain rfl := Option.some.inj hd₁'
        exact absurd hp' (hfresh k d₁ p hd₁ hp)
      · exact h.distinct k k' d₁ d₁' p hd₁ hd₁' hp hp'
  · rw [hopened.find?] at hk
    split at hk
    · cases hk
    · rw [hrejections, hopened.money.entries]
      exact h.absent k hk

/-! ### A request is taken on -/

theorem rejectionsOf_append {ms : List OfficeMark} (h : s'.depositMarks = s.depositMarks ++ ms)
    (k : ℕ) : rejectionsOf s' k = rejectionsOf s k + ms.count (.rejects k) := by
  rw [rejectionsOf, h, List.count_append, rejectionsOf]

theorem count_markFor (id k : ℕ) (status : DepositStatus) :
    (markFor id status).count (.rejects k) = if k = id ∧ status = .rejected then 1 else 0 := by
  cases status with
  | rejected =>
    by_cases hk : k = id
    · simp [markFor, hk]
    · simp [markFor, hk, Ne.symm hk]
  | _ => simp [markFor]

/-- The journals of a request that is taken on. -/
theorem Taken.entries_of_ne (h : Taken d d' s s') {k : ℕ} (hk : k ≠ d.id) :
    s'.depositEntries k = s.depositEntries k := by
  have hmoney := h.money
  split at hmoney
  · obtain ⟨entries, -, hentries⟩ := hmoney.entries
    rw [hentries, if_neg hk, List.append_nil]
  · exact hmoney.entries k

theorem Taken.rejections (h : Taken d d' s s') (k : ℕ) : rejectionsOf s' k = rejectionsOf s k +
    if k = d.id ∧ d'.status = .rejected then 1 else 0 := by
  rw [rejectionsOf_append h.marks, count_markFor]

/-- Only a review ends with a decision. -/
theorem underReview_of_legal {before after : DepositStatus} (h : canTransition before after = true)
    (hafter : after = .rejected ∨ after = .approved) : before = .underReview := by
  revert h
  rcases hafter with rfl | rfl
  · cases before <;> decide
  · cases before <;> decide

theorem Taken.stands {s₀ : OfficeDb} (h : Sound s₀ s) (haccounts : Accounts s s')
    (htaken : Taken d d' s s') : Stands s' d' := by
  have hbefore := h.stands _ _ htaken.before
  have hopen : d.status ≠ .approved := by
    intro hstatus
    have hlegal := htaken.legal
    rw [hstatus] at hlegal
    exact absurd hlegal (by simp [canTransition, TRANSITIONS])
  have hpaid := hbefore.paid
  rw [if_neg hopen] at hpaid
  have hcount := htaken.count
  have hlegal := htaken.legal
  have hid := htaken.same.id
  refine ⟨?_, ?_, fun hstill => ?_, ?_, ?_, fun p hp => ?_⟩
  · rw [hid, htaken.rejections, hbefore.rejections, hcount]
    simp
  · rw [hcount]
    split
    · rename_i hrejected
      have hreview := underReview_of_legal hlegal (.inl hrejected)
      exact hbefore.below (by rw [hreview]; rfl)
    · exact hbefore.limit
  · rw [hcount, if_neg (by intro hno; rw [hno] at hstill; cases hstill)]
    by_cases hupload : d'.status = .receiptUploaded
    · exact htaken.inTime hupload
    · -- a review starts from a receipt, and nothing comes back to PENDING_PAYMENT
      refine hbefore.below ?_
      revert hlegal hstill hupload
      cases d.status <;> cases d'.status <;> decide
  · have hmoney := htaken.money
    split at hmoney
    · rename_i hstatus
      obtain ⟨entries, hpays, hentries⟩ := hmoney.entries
      rw [if_pos hstatus, hid, hentries, if_pos rfl, hpaid]
      exact ⟨entries, rfl, hpays.same htaken.same⟩
    · rename_i hstatus
      rw [if_neg hstatus, hid, hmoney.entries, hpaid]
  · obtain ⟨w, hw, huser⟩ := hbefore.owned
    obtain ⟨w', hw', huser'⟩ := haccounts.owners _ w hw
    rw [htaken.same.walletId, htaken.same.userId]
    exact ⟨w', hw', huser'.trans huser⟩
  · rw [htaken.same.proforma] at hp
    obtain ⟨i, hi, hiff⟩ := hbefore.proforma p hp
    obtain ⟨i', hi', -⟩ := htaken.proformas p i hi
    have hproforma := htaken.proforma p i' hp hi'
    refine ⟨i', hi', ?_⟩
    split at hproforma
    · rename_i hstatus
      simp [hproforma, hstatus]
    · rename_i hstatus
      refine iff_of_false (fun hconsumed => ?_) hstatus
      obtain ⟨i₁, hi₁, hconsumed₁⟩ := hproforma hconsumed
      rw [hi, Option.some.injEq] at hi₁
      subst hi₁
      exact hopen (hiff.mp hconsumed₁)

/-- What stands before an element of `l ++ [m]`. -/
theorem append_singleton_split {α : Type} {l before after : List α} {m x : α}
    (h : l ++ [m] = before ++ x :: after) :
    (before = l ∧ m = x) ∨ ∃ after', l = before ++ x :: after' := by
  rcases List.eq_nil_or_concat after with rfl | ⟨after', y, rfl⟩
  · obtain ⟨hl, hm⟩ := List.append_inj' h rfl
    exact .inl ⟨hl.symm, List.head_eq_of_cons_eq hm⟩
  · rw [List.concat_eq_append, ← List.cons_append, ← List.append_assoc] at h
    exact .inr ⟨after', (List.append_inj' h rfl).1⟩

/-- The mark of an upload comes in time. -/
theorem UploadsInTime.append {marks : List OfficeMark} (h : UploadsInTime marks) {id : ℕ}
    {status : DepositStatus}
    (hcount : status = .receiptUploaded → marks.count (.rejects id) < MAX_REJECTIONS) :
    UploadsInTime (marks ++ markFor id status) := by
  intro before after k heq
  cases status with
  | receiptUploaded =>
    rcases append_singleton_split heq with ⟨rfl, hmark⟩ | ⟨after', hmarks⟩
    · injection hmark with hid
      exact hid ▸ hcount rfl
    · exact h before after' k hmarks
  | rejected =>
    rcases append_singleton_split heq with ⟨-, hmark⟩ | ⟨after', hmarks⟩
    · cases hmark
    · exact h before after' k hmarks
  | _ => exact h before after k (by simpa [markFor] using heq)

theorem Sound.taken {s₀ : OfficeDb} (h : Sound s₀ s) (haccounts : Accounts s s')
    (htaken : Taken d d' s s') : Sound s₀ s' := by
  have hbefore := h.stands _ _ htaken.before
  have hsame : ∀ k d₁, s'.deposits.find? k = some d₁ →
      ∃ d₀, s.deposits.find? k = some d₀ ∧ d₁.proformaInvoiceId = d₀.proformaInvoiceId := by
    intro k d₁ hd₁
    rw [htaken.find?] at hd₁
    split at hd₁
    · rename_i hk
      obtain rfl := Option.some.inj hd₁
      exact ⟨d, hk ▸ htaken.before, htaken.same.proforma⟩
    · exact ⟨d₁, hd₁, rfl⟩
  refine ⟨fun k => ?_, fun k d₁ hd₁ => ?_, fun k k' d₁ d₁' p hd₁ hd₁' hp hp' => ?_, fun k hk => ?_,
    ?_, fun id hask => ?_⟩
  · rw [htaken.approvedRial, ← add_assoc, ← h.wallets]
    have hmoney := htaken.money
    split at hmoney
    · rename_i hstatus
      simp only [hmoney.rial, hstatus, true_and]
    · rename_i hstatus
      simp [hmoney.rial, hstatus]
  · rw [htaken.find?] at hd₁
    split at hd₁
    · exact Option.some.inj hd₁ ▸ htaken.stands h haccounts
    · rename_i hk
      have hid : d₁.id = k := Table.key_of_find? hd₁
      refine (h.stands k d₁ hd₁).kept haccounts ?_ ?_ htaken.proformas fun p hp hother => ?_
      · rw [htaken.rejections, if_neg (fun hno => hk (hid ▸ hno.1)), add_zero]
      · exact htaken.entries_of_ne (hid ▸ hk)
      · exact hk (h.distinct k d.id d₁ d p hd₁ htaken.before hp hother)
  · obtain ⟨d₀, hd₀, hproforma⟩ := hsame k d₁ hd₁
    obtain ⟨d₀', hd₀', hproforma'⟩ := hsame k' d₁' hd₁'
    exact h.distinct k k' d₀ d₀' p hd₀ hd₀' (hproforma ▸ hp) (hproforma' ▸ hp')
  · rw [htaken.find?] at hk
    split at hk
    · cases hk
    · rename_i hne
      rw [htaken.rejections, if_neg (fun hno => hne hno.1), add_zero, htaken.entries_of_ne hne]
      exact h.absent k hk
  · rw [htaken.marks]
    refine h.uploads.append fun hupload => ?_
    have hcount : rejectionsOf s d.id < MAX_REJECTIONS := hbefore.rejections ▸ htaken.inTime hupload
    exact hcount
  · rw [htaken.marks, List.mem_append] at hask
    rcases hask with hask | hask
    · exact h.unasked id hask
    · revert hask
      cases d'.status <;> simp [markFor]

/-- **Step lemma**. -/
theorem Sound.step {s₀ : OfficeDb} (h : Sound s₀ s) (hstep : DepositStep s s') : Sound s₀ s' := by
  cases hstep.change with
  | idle hidle => exact h.idle hstep.accounts hidle
  | opened d hopened => exact h.opened hstep.accounts hopened
  | taken d d' htaken => exact h.taken hstep.accounts htaken

/-- **Run lemma**. -/
theorem Sound.run {s₀ : OfficeDb} (h : Sound s₀ s) (hrun : Relation.ReflTransGen DepositStep s s') :
    Sound s₀ s' := by
  induction hrun with
  | refl => exact h
  | tail _ hlast ih => exact ih.step hlast

end DepositService

end ArkanGold
