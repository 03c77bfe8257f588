import ArkanGold.Partners.RefundInverse
import ArkanGold.Store.OfficeRules

/-!
# What the order services commit

A commit of `create`, `confirm`, `cancel`, `refund` or `settle` is an `OrderStep`: it
registers an order, takes one order on, or takes the orders of a settlement on, and moves the
total of the partners and account 1050 by the same amount. The lock of an order keeps its row
and that of a partner keeps the balance until then. Nothing in `settle` looks at the status of
the orders again once they were selected: that they are still CONFIRMED is the condition on
the mark (`StillConfirmed`).
-/

namespace ArkanGold

open AccountingService

namespace OfficeDb

/-- What the partners owe altogether. -/
def partnersTotal (s : OfficeDb) : ℤ := s.partners.sum SalesPartner.balanceRial

/-- The balance of account 1050. -/
def receivable (s : OfficeDb) : ℤ := balanceOf .rial s.books PartnerAccounts.PARTNER_RECEIVABLE

/-- A mark about partner orders. -/
def isOrderMark : OfficeMark → Bool
  | .confirms _ | .refunds _ | .settles _ _ _ => true
  | _ => false

/-- The marks about partner orders. -/
def orderMarks (s : OfficeDb) : List OfficeMark := s.history.filter isOrderMark

end OfficeDb

namespace PartnerOrdersService

open PartnerAccounts

variable {s s' s'' : OfficeDb}

/-! ## Steps -/

/-- What the partner owes for an order. -/
def netOf (s : OfficeDb) (id : ℕ) : ℤ :=
  ((s.partnerOrders.find? id).map PartnerOrder.netReceivableRial).getD 0

/-- The partners and account 1050 move by the same amount. -/
def Moved (d : ℤ) (s s' : OfficeDb) : Prop :=
  s'.partnersTotal = s.partnersTotal + d ∧ s'.receivable = s.receivable + d

/-- The order `o` is there, new or changed; the others stay. -/
def Puts (o : PartnerOrder) (s s' : OfficeDb) : Prop :=
  ∀ k, s'.partnerOrders.find? k = if k = o.id then some o else s.partnerOrders.find? k

/-- The journal of a confirmation is in the books and debits account 1050 with what the partner
owes for the order. -/
def Journalized (s : OfficeDb) (o : PartnerOrder) : Prop :=
  ∃ k j, o.confirmJournalId = some k ∧ s.books.journals.find? k = some j ∧
    entryEffect .rial s.books PARTNER_RECEIVABLE j.ledgerEntries = o.netReceivableRial

/-- An order that is taken on from a status. -/
structure TakenOn (o o' : PartnerOrder) (s s' : OfficeDb) : Prop where
  before : s.partnerOrders.find? o.id = some o
  after : Puts o' s s'
  id : o'.id = o.id
  net : o'.netReceivableRial = o.netReceivableRial
  settlements : s'.settlements = s.settlements

/-- What a step does to the orders, the settlements and their marks. -/
inductive OrderChange (s s' : OfficeDb) : Prop where
  | none (horders : s'.partnerOrders = s.partnerOrders) (hsettlements : s'.settlements = s.settlements)
      (hmarks : s'.orderMarks = s.orderMarks) (hmoved : Moved 0 s s')
  | register (o : PartnerOrder) (hnew : s.partnerOrders.find? o.id = .none)
      (hpending : o.status = .pending) (horders : Puts o s s')
      (hsettlements : s'.settlements = s.settlements) (hmarks : s'.orderMarks = s.orderMarks)
      (hmoved : Moved 0 s s')
  | confirm (o o' : PartnerOrder) (htaken : TakenOn o o' s s') (hpending : o.status = .pending)
      (hstatus : o'.status = .confirmed) (hjournal : Journalized s' o')
      (hmarks : s'.orderMarks = s.orderMarks ++ [.confirms o.id])
      (hmoved : Moved o.netReceivableRial s s')
  | cancel (o o' : PartnerOrder) (htaken : TakenOn o o' s s') (hpending : o.status = .pending)
      (hstatus : o'.status = .cancelled) (hmarks : s'.orderMarks = s.orderMarks)
      (hmoved : Moved 0 s s')
  | refund (o o' : PartnerOrder) (htaken : TakenOn o o' s s')
      (hconfirmed : o.status = .confirmed ∨ o.status = .settled) (hstatus : o'.status = .refunded)
      (hmarks : s'.orderMarks = s.orderMarks ++ [.refunds o.id])
      (hmoved : Moved (-o.netReceivableRial) s s')
  | settle (st : PartnerSettlement) (auto : Bool) (ids : List ℕ)
      (hnew : s.settlements.find? st.id = .none)
      (hconfirmed : ∀ k ∈ ids, ∃ o, s.partnerOrders.find? k = some o ∧ o.status = .confirmed)
      (hauto : auto = true → (ids.map (netOf s)).sum ≤ st.amountRial)
      (horders : ∀ k, s'.partnerOrders.find? k = (s.partnerOrders.find? k).map fun o =>
        if o.id ∈ ids then settled st.id o else o)
      (hsettlements : ∀ k, s'.settlements.find? k =
        if k = st.id then some st else s.settlements.find? k)
      (hmarks : s'.orderMarks = s.orderMarks ++ [.settles st.id auto ids])
      (hmoved : Moved (-st.amountRial) s s')

/-- What a commit does. -/
structure OrderStep (s s' : OfficeDb) : Prop where
  books : BooksGrow s.books s'.books
  change : OrderChange s s'

/-- What a lock protects: the row of an order, the balance of a partner, or the absence of the
row that is being inserted. -/
def orderFrame (r : OfficeRow) (s s' : OfficeDb) : Prop :=
  match r with
  | .partnerOrder k => ∀ o, s.partnerOrders.find? k = some o → s'.partnerOrders.find? k = some o
  | .partner k => ∀ p, s.partners.find? k = some p →
      ∃ p', s'.partners.find? k = some p' ∧ p'.balanceRial = p.balanceRial
  | .store (.own n) => (s.partnerOrders.find? n = none → s'.partnerOrders.find? n = none) ∧
      (s.settlements.find? n = none → s'.settlements.find? n = none)
  | _ => True

/-- The orders that a settlement is about to mark are still CONFIRMED. -/
def StillConfirmed : OfficeMark → OfficeDb → Prop
  | .settles _ _ ids, s => ∀ k ∈ ids,
      ∃ o, s.partnerOrders.find? k = some o ∧ o.status = .confirmed
  | _, _ => True

theorem moved_refl (s : OfficeDb) : Moved 0 s s := ⟨(add_zero _).symm, (add_zero _).symm⟩

theorem orderFrame_refl (r : OfficeRow) (s : OfficeDb) : orderFrame r s s := by
  unfold orderFrame
  split
  · exact fun _ h => h
  · exact fun p h => ⟨p, h, rfl⟩
  · exact ⟨fun h => h, fun h => h⟩
  · trivial

theorem orderFrame_trans (r : OfficeRow) (s s' s'' : OfficeDb) (h : orderFrame r s s')
    (h' : orderFrame r s' s'') : orderFrame r s s'' := by
  unfold orderFrame at *
  split at h
  · exact fun o ho => h' o (h o ho)
  · intro p hp
    obtain ⟨p₁, hp₁, hbalance₁⟩ := h p hp
    obtain ⟨p₂, hp₂, hbalance₂⟩ := h' p₁ hp₁
    exact ⟨p₂, hp₂, hbalance₂.trans hbalance₁⟩
  · exact ⟨fun hn => h'.1 (h.1 hn), fun hn => h'.2 (h.2 hn)⟩
  · trivial

/-- The discipline of the partner orders. -/
def orderDiscipline : Discipline OfficeRow OfficeMark OfficeDb where
  trans := OrderStep
  frame := orderFrame
  cond := StillConfirmed
  trans_refl s := ⟨.refl _, .none rfl rfl rfl (moved_refl s)⟩
  frame_refl := orderFrame_refl
  frame_trans := orderFrame_trans

/-! ## What stays -/

/-- What an order was sold for stays. -/
def NetKept (s s' : OfficeDb) : Prop := ∀ k o, s.partnerOrders.find? k = some o →
  ∃ o', s'.partnerOrders.find? k = some o' ∧ o'.netReceivableRial = o.netReceivableRial

/-- What a session can count on, whatever it has locked. -/
def Kept (s s' : OfficeDb) : Prop := BooksGrow s.books s'.books ∧ NetKept s s'

theorem Kept.refl (s : OfficeDb) : Kept s s := ⟨.refl _, fun _ o h => ⟨o, h, rfl⟩⟩

theorem Kept.trans (h : Kept s s') (h' : Kept s' s'') : Kept s s'' := by
  refine ⟨h.1.trans h'.1, fun k o ho => ?_⟩
  obtain ⟨o₁, ho₁, hnet₁⟩ := h.2 k o ho
  obtain ⟨o₂, ho₂, hnet₂⟩ := h'.2 k o₁ ho₁
  exact ⟨o₂, ho₂, hnet₂.trans hnet₁⟩

theorem TakenOn.netKept {o o' : PartnerOrder} (h : TakenOn o o' s s') : NetKept s s' := by
  intro k o₀ ho₀
  rw [h.after k]
  split
  · rename_i hk
    rw [hk, h.id, h.before, Option.some.injEq] at ho₀
    exact ⟨o', rfl, ho₀ ▸ h.net⟩
  · exact ⟨o₀, ho₀, rfl⟩

theorem kept_step (h : OrderStep s s') : Kept s s' := by
  refine ⟨h.books, ?_⟩
  cases h.change with
  | none horders => exact fun k o ho => ⟨o, horders ▸ ho, rfl⟩
  | register o hnew _ horders =>
    intro k o₀ ho₀
    rw [horders k, if_neg]
    · exact ⟨o₀, ho₀, rfl⟩
    · rintro rfl
      rw [hnew] at ho₀
      cases ho₀
  | confirm o o' htaken => exact htaken.netKept
  | cancel o o' htaken => exact htaken.netKept
  | refund o o' htaken => exact htaken.netKept
  | settle st auto ids _ _ _ horders =>
    intro k o ho
    rw [horders k, ho, Option.map_some]
    refine ⟨_, rfl, ?_⟩
    split <;> rfl

theorem kept_rely {held : List OfficeRow} (h : orderDiscipline.rely held s s') : Kept s s' :=
  Discipline.rely_of Kept.refl (fun _ _ _ => Kept.trans) (fun _ _ => kept_step) h

theorem netOf_kept (h : NetKept s s') {k : ℕ} {o : PartnerOrder}
    (ho : s.partnerOrders.find? k = some o) : netOf s' k = netOf s k := by
  obtain ⟨o', ho', hnet⟩ := h k o ho
  rw [netOf, netOf, ho, ho', Option.map_some, Option.map_some, hnet]

/-! ## The invariant -/

/-- How often an order was confirmed. -/
def confirmsOf (s : OfficeDb) (id : ℕ) : ℕ := s.orderMarks.count (.confirms id)

/-- How often an order was refunded. -/
def refundsOf (s : OfficeDb) (id : ℕ) : ℕ := s.orderMarks.count (.refunds id)

/-- The settlement of a mark, if it is for the order. -/
def settlementFor (id : ℕ) : OfficeMark → Option ℕ
  | .settles n _ ids => if id ∈ ids then some n else none
  | _ => none

/-- The settlements of an order. -/
def settlementsOf (s : OfficeDb) (id : ℕ) : List ℕ := s.orderMarks.filterMap (settlementFor id)

/-- The orders of a mark. -/
def ordersOf : OfficeMark → List ℕ
  | .confirms id | .refunds id => [id]
  | .settles _ _ ids => ids
  | _ => []

/-- What has been done with an order agrees with its status. -/
def Stands (s : OfficeDb) (o : PartnerOrder) : Prop :=
  match o.status with
  | .pending | .cancelled => confirmsOf s o.id = 0 ∧ refundsOf s o.id = 0 ∧ settlementsOf s o.id = []
  | .confirmed => confirmsOf s o.id = 1 ∧ refundsOf s o.id = 0 ∧ settlementsOf s o.id = []
  | .settled => confirmsOf s o.id = 1 ∧ refundsOf s o.id = 0 ∧
      ∃ n, settlementsOf s o.id = [n] ∧ o.settlementId = some n
  | .refunded => confirmsOf s o.id = 1 ∧ refundsOf s o.id = 1

/-- The invariant of the partner orders. -/
structure Agrees (s : OfficeDb) : Prop where
  total : s.partnersTotal = s.receivable
  sound : SoundBooks s.books
  stands : ∀ k o, s.partnerOrders.find? k = some o → Stands s o
  journalized : ∀ k o, s.partnerOrders.find? k = some o →
    o.status = .confirmed ∨ o.status = .settled → Journalized s o
  known : ∀ m ∈ s.orderMarks, ∀ id ∈ ordersOf m, ∃ o, s.partnerOrders.find? id = some o
  settlements : ∀ n auto ids, .settles n auto ids ∈ s.orderMarks → ∃ st,
    s.settlements.find? n = some st ∧ (auto = true → (ids.map (netOf s)).sum ≤ st.amountRial)

/-- What a mark adds for an order. -/
theorem marks_append {l : OfficeMark} (h : s'.orderMarks = s.orderMarks ++ [l]) (id : ℕ) :
    confirmsOf s' id = confirmsOf s id + (if l = .confirms id then 1 else 0) ∧
      refundsOf s' id = refundsOf s id + (if l = .refunds id then 1 else 0) ∧
      settlementsOf s' id = settlementsOf s id ++ (settlementFor id l).toList := by
  refine ⟨?_, ?_, ?_⟩
  · rw [confirmsOf, h, List.count_append, List.count_singleton]
    simp [confirmsOf]
  · rw [refundsOf, h, List.count_append, List.count_singleton]
    simp [refundsOf]
  · rw [settlementsOf, h, List.filterMap_append, settlementsOf]
    congr 1

/-- A mark for other orders changes nothing for an order. -/
theorem marks_other {l : OfficeMark} (h : s'.orderMarks = s.orderMarks ++ [l]) {id : ℕ}
    (hid : id ∉ ordersOf l) : confirmsOf s' id = confirmsOf s id ∧ refundsOf s' id = refundsOf s id ∧
      settlementsOf s' id = settlementsOf s id := by
  obtain ⟨hconfirms, hrefunds, hsettlements⟩ := marks_append h id
  rw [hconfirms, hrefunds, hsettlements]
  cases l <;> simp_all [ordersOf, settlementFor, eq_comm]

/-- Nothing has been done with an order that is not there. -/
theorem Agrees.absent (h : Agrees s) {k : ℕ} (hk : s.partnerOrders.find? k = none) :
    confirmsOf s k = 0 ∧ refundsOf s k = 0 ∧ settlementsOf s k = [] := by
  have hno : ∀ m ∈ s.orderMarks, k ∉ ordersOf m := by
    intro m hm hmem
    obtain ⟨o, ho⟩ := h.known m hm k hmem
    rw [hk] at ho
    cases ho
  refine ⟨?_, ?_, ?_⟩
  · exact List.count_eq_zero.mpr fun hm => hno _ hm (by simp [ordersOf])
  · exact List.count_eq_zero.mpr fun hm => hno _ hm (by simp [ordersOf])
  · refine List.filterMap_eq_nil_iff.mpr fun m hm => ?_
    have := hno m hm
    cases m <;> simp_all [ordersOf, settlementFor]

/-- What has been done with an order is read off its id and the marks. -/
theorem stands_congr {o o' : PartnerOrder} (hid : o'.id = o.id) (hstatus : o'.status = o.status)
    (hsettlement : o'.settlementId = o.settlementId) (hconfirms : confirmsOf s' o.id = confirmsOf s o.id)
    (hrefunds : refundsOf s' o.id = refundsOf s o.id)
    (hsettlements : settlementsOf s' o.id = settlementsOf s o.id) :
    Stands s' o' ↔ Stands s o := by
  simp only [Stands, hid, hstatus, hsettlement, hconfirms, hrefunds, hsettlements]

theorem journalized_grow {o : PartnerOrder} (hsound : SoundBooks s.books)
    (hgrow : BooksGrow s.books s'.books) (h : Journalized s o) : Journalized s' o := by
  obtain ⟨k, j, hk, hj, heffect⟩ := h
  obtain ⟨j', hj', hentries⟩ := hgrow.kept k j hj
  refine ⟨k, j', hk, hj', ?_⟩
  rw [hentries, entryEffect_kept .rial hgrow.chart (hsound j (Table.mem_of_find? hj)).covered,
    heffect]

/-- What is known of the marks stays known. -/
theorem Agrees.known_kept (h : Agrees s) (hnet : NetKept s s') {m : OfficeMark}
    (hm : m ∈ s.orderMarks) {id : ℕ} (hid : id ∈ ordersOf m) :
    ∃ o, s'.partnerOrders.find? id = some o := by
  obtain ⟨o, ho⟩ := h.known m hm id hid
  obtain ⟨o', ho', -⟩ := hnet id o ho
  exact ⟨o', ho'⟩

/-- What the partners owe for orders stays. -/
theorem sum_netOf_kept (hnet : NetKept s s') {ids : List ℕ}
    (hknown : ∀ id ∈ ids, ∃ o, s.partnerOrders.find? id = some o) :
    (ids.map (netOf s')).sum = (ids.map (netOf s)).sum := by
  congr 1
  refine List.map_congr_left fun id hid => ?_
  obtain ⟨o, ho⟩ := hknown id hid
  exact netOf_kept hnet ho

/-- A settlement stays enough for its orders. -/
theorem Agrees.settlement_kept (h : Agrees s) (hnet : NetKept s s')
    (hsettlements : ∀ k st, s.settlements.find? k = some st → s'.settlements.find? k = some st)
    {n : ℕ} {auto : Bool} {ids : List ℕ} (hm : .settles n auto ids ∈ s.orderMarks) : ∃ st,
    s'.settlements.find? n = some st ∧ (auto = true → (ids.map (netOf s')).sum ≤ st.amountRial) := by
  obtain ⟨st, hst, hsum⟩ := h.settlements n auto ids hm
  have hknown : ∀ id ∈ ids, ∃ o, s.partnerOrders.find? id = some o := fun id hid =>
    h.known _ hm id hid
  rw [sum_netOf_kept hnet hknown]
  exact ⟨st, hsettlements n st hst, hsum⟩

theorem moved_total {d : ℤ} (h : Moved d s s') (htotal : s.partnersTotal = s.receivable) :
    s'.partnersTotal = s'.receivable := by
  rw [h.1, h.2, htotal]

/-- A step that leaves the settlements alone and adds at most a mark of one order. -/
theorem Agrees.of_order (h : Agrees s) (hstep : OrderStep s s') {d : ℤ} (hmoved : Moved d s s')
    {o : PartnerOrder} (hput : Puts o s s') (hsettlements : s'.settlements = s.settlements)
    (hothers : ∀ k, k ≠ o.id → confirmsOf s' k = confirmsOf s k ∧ refundsOf s' k = refundsOf s k ∧
      settlementsOf s' k = settlementsOf s k)
    (hmarks : ∀ m ∈ s'.orderMarks, m ∈ s.orderMarks ∨ m = .confirms o.id ∨ m = .refunds o.id)
    (hstands : Stands s' o)
    (hjournal : o.status = .confirmed ∨ o.status = .settled → Journalized s' o) : Agrees s' := by
  have hkept := kept_step hstep
  refine ⟨moved_total hmoved h.total, h.sound.grow hkept.1, fun k o₁ ho₁ => ?_,
    fun k o₁ ho₁ hstatus => ?_, fun m hm id hid => ?_, fun n auto ids hm => ?_⟩
  · rw [hput k] at ho₁
    split at ho₁
    · exact Option.some.inj ho₁ ▸ hstands
    · rename_i hk
      have hid : o₁.id = k := Table.key_of_find? ho₁
      obtain ⟨hconfirms, hrefunds, hsettled⟩ := hothers k hk
      rw [← hid] at hconfirms hrefunds hsettled
      exact (stands_congr rfl rfl rfl hconfirms hrefunds hsettled).mpr (h.stands k o₁ ho₁)
  · rw [hput k] at ho₁
    split at ho₁
    · obtain rfl := Option.some.inj ho₁
      exact hjournal hstatus
    · exact journalized_grow h.sound hkept.1 (h.journalized k o₁ ho₁ hstatus)
  · rcases hmarks m hm with hm | rfl | rfl
    · exact h.known_kept hkept.2 hm hid
    · rw [ordersOf, List.mem_singleton] at hid
      exact ⟨o, by rw [hput, if_pos hid]⟩
    · rw [ordersOf, List.mem_singleton] at hid
      exact ⟨o, by rw [hput, if_pos hid]⟩
  · have hm : OfficeMark.settles n auto ids ∈ s.orderMarks := by
      rcases hmarks _ hm with hm | hm | hm
      · exact hm
      · cases hm
      · cases hm
    exact h.settlement_kept hkept.2 (fun _ _ h => hsettlements ▸ h) hm

/-- Without a new mark nothing has been done with any order. -/
theorem marks_eq (h : s'.orderMarks = s.orderMarks) (k : ℕ) : confirmsOf s' k = confirmsOf s k ∧
    refundsOf s' k = refundsOf s k ∧ settlementsOf s' k = settlementsOf s k := by
  simp only [confirmsOf, refundsOf, settlementsOf, h, and_self]

theorem Agrees.quiet (h : Agrees s) (hstep : OrderStep s s') (horders : s'.partnerOrders = s.partnerOrders)
    (hsettlements : s'.settlements = s.settlements) (hmarks : s'.orderMarks = s.orderMarks)
    (hmoved : Moved 0 s s') : Agrees s' := by
  have hkept := kept_step hstep
  refine ⟨moved_total hmoved h.total, h.sound.grow hkept.1, fun k o ho => ?_,
    fun k o ho hstatus => ?_, fun m hm id hid => ?_, fun n auto ids hm => ?_⟩
  · rw [horders] at ho
    obtain ⟨hconfirms, hrefunds, hsettled⟩ := marks_eq hmarks o.id
    exact (stands_congr rfl rfl rfl hconfirms hrefunds hsettled).mpr (h.stands k o ho)
  · rw [horders] at ho
    exact journalized_grow h.sound hkept.1 (h.journalized k o ho hstatus)
  · exact h.known_kept hkept.2 (hmarks ▸ hm) hid
  · exact h.settlement_kept hkept.2 (fun _ _ h => hsettlements ▸ h) (hmarks ▸ hm)

theorem Agrees.settle (h : Agrees s) (hstep : OrderStep s s') {st : PartnerSettlement} {auto : Bool}
    {ids : List ℕ} (hnew : s.settlements.find? st.id = none)
    (hconfirmed : ∀ k ∈ ids, ∃ o, s.partnerOrders.find? k = some o ∧ o.status = .confirmed)
    (hauto : auto = true → (ids.map (netOf s)).sum ≤ st.amountRial)
    (horders : ∀ k, s'.partnerOrders.find? k = (s.partnerOrders.find? k).map fun o =>
      if o.id ∈ ids then settled st.id o else o)
    (hsettlements : ∀ k, s'.settlements.find? k =
      if k = st.id then some st else s.settlements.find? k)
    (hmarks : s'.orderMarks = s.orderMarks ++ [.settles st.id auto ids])
    (hmoved : Moved (-st.amountRial) s s') : Agrees s' := by
  have hkept := kept_step hstep
  refine ⟨moved_total hmoved h.total, h.sound.grow hkept.1, fun k o₁ ho₁ => ?_,
    fun k o₁ ho₁ hstatus => ?_, fun m hm id hid => ?_, fun n auto' ids' hm => ?_⟩
  · rw [horders k] at ho₁
    obtain ⟨o, ho, rfl⟩ := Option.map_eq_some_iff.mp ho₁
    have hid : o.id = k := Table.key_of_find? ho
    have hstands := h.stands k o ho
    split
    · -- an order of the settlement
      rename_i hmem
      obtain ⟨o', ho', hstatus⟩ := hconfirmed k (hid ▸ hmem)
      rw [ho, Option.some.injEq] at ho'
      subst ho'
      obtain ⟨hconfirms, hrefunds, hsettled⟩ := marks_append hmarks o.id
      simp only [Stands, hstatus] at hstands
      refine ⟨?_, ?_, st.id, ?_, rfl⟩
      · rw [id_settled, hconfirms, hstands.1]
        rfl
      · rw [id_settled, hrefunds, hstands.2.1]
        rfl
      · rw [id_settled, hsettled, hstands.2.2, settlementFor, if_pos hmem]
        rfl
    · rename_i hmem
      have hother : o.id ∉ ordersOf (.settles st.id auto ids) := hmem
      obtain ⟨hconfirms, hrefunds, hsettled⟩ := marks_other hmarks hother
      exact (stands_congr rfl rfl rfl hconfirms hrefunds hsettled).mpr hstands
  · rw [horders k] at ho₁
    obtain ⟨o, ho, rfl⟩ := Option.map_eq_some_iff.mp ho₁
    by_cases hmem : o.id ∈ ids
    · obtain ⟨o', ho', hstatus'⟩ := hconfirmed k (Table.key_of_find? ho ▸ hmem)
      rw [ho, Option.some.injEq] at ho'
      subst ho'
      rw [if_pos hmem]
      exact journalized_grow h.sound hkept.1 (h.journalized k o ho (.inl hstatus'))
    · rw [if_neg hmem] at hstatus ⊢
      exact journalized_grow h.sound hkept.1 (h.journalized k o ho hstatus)
  · rw [hmarks, List.mem_append, List.mem_singleton] at hm
    rcases hm with hm | rfl
    · exact h.known_kept hkept.2 hm hid
    · obtain ⟨o, ho, -⟩ := hconfirmed id hid
      exact ⟨_, by rw [horders, ho, Option.map_some]⟩
  · rw [hmarks, List.mem_append, List.mem_singleton] at hm
    rcases hm with hm | hm
    · refine h.settlement_kept hkept.2 (fun k st' hst' => ?_) hm
      rw [hsettlements, if_neg, hst']
      rintro rfl
      rw [hnew] at hst'
      cases hst'
    · cases hm
      refine ⟨st, by rw [hsettlements, if_pos rfl], fun hauto' => ?_⟩
      rw [sum_netOf_kept hkept.2 fun id hid => (hconfirmed id hid).imp fun _ h => h.1]
      exact hauto hauto'

/-- **Step lemma**. -/
theorem Agrees.step (h : Agrees s) (hstep : OrderStep s s') : Agrees s' := by
  cases hstep.change with
  | none horders hsettlements hmarks hmoved => exact h.quiet hstep horders hsettlements hmarks hmoved
  | register o hnew hpending horders hsettlements hmarks hmoved =>
    refine h.of_order hstep hmoved horders hsettlements (fun k _ => marks_eq hmarks k)
      (fun m hm => .inl (hmarks ▸ hm)) ?_ (by simp [hpending])
    obtain ⟨hconfirms, hrefunds, hsettled⟩ := marks_eq hmarks o.id
    simp only [Stands, hpending, hconfirms, hrefunds, hsettled]
    exact h.absent hnew
  | confirm o o' htaken hpending hstatus hjournal hmarks hmoved =>
    have hstands := h.stands _ _ htaken.before
    simp only [Stands, hpending] at hstands
    refine h.of_order hstep hmoved htaken.after htaken.settlements
      (fun k hk => marks_other hmarks (by simpa [ordersOf, htaken.id] using hk))
      (fun m hm => ?_) ?_ fun _ => hjournal
    · rw [hmarks, List.mem_append, List.mem_singleton] at hm
      exact hm.imp_right fun hm => .inl (htaken.id ▸ hm)
    · obtain ⟨hconfirms, hrefunds, hsettled⟩ := marks_append hmarks o.id
      simp [Stands, hstatus, htaken.id, hconfirms, hrefunds, hsettled, hstands, settlementFor]
  | cancel o o' htaken hpending hstatus hmarks hmoved =>
    have hstands := h.stands _ _ htaken.before
    simp only [Stands, hpending] at hstands
    refine h.of_order hstep hmoved htaken.after htaken.settlements (fun k _ => marks_eq hmarks k)
      (fun m hm => .inl (hmarks ▸ hm)) ?_ (by simp [hstatus])
    obtain ⟨hconfirms, hrefunds, hsettled⟩ := marks_eq hmarks o.id
    simp only [Stands, hstatus, htaken.id, hconfirms, hrefunds, hsettled]
    exact hstands
  | refund o o' htaken hconfirmed hstatus hmarks hmoved =>
    have hstands := h.stands _ _ htaken.before
    refine h.of_order hstep hmoved htaken.after htaken.settlements
      (fun k hk => marks_other hmarks (by simpa [ordersOf, htaken.id] using hk))
      (fun m hm => ?_) ?_ (by simp [hstatus])
    · rw [hmarks, List.mem_append, List.mem_singleton] at hm
      exact hm.imp_right fun hm => .inr (htaken.id ▸ hm)
    · obtain ⟨hconfirms, hrefunds, -⟩ := marks_append hmarks o.id
      have hbefore : confirmsOf s o.id = 1 ∧ refundsOf s o.id = 0 := by
        rcases hconfirmed with hc | hc
        · simp only [Stands, hc] at hstands
          exact ⟨hstands.1, hstands.2.1⟩
        · simp only [Stands, hc] at hstands
          exact ⟨hstands.1, hstands.2.1⟩
      simp [Stands, hstatus, htaken.id, hconfirms, hrefunds, hbefore]
  | settle st auto ids hnew hconfirmed hauto horders hsettlements hmarks hmoved =>
    exact h.settle hstep hnew hconfirmed hauto horders hsettlements hmarks hmoved

/-- **Run lemma**. -/
theorem Agrees.run (h : Agrees s) (hrun : Relation.ReflTransGen OrderStep s s') : Agrees s' := by
  induction hrun with
  | refl => exact h
  | tail _ hlast ih => exact ih.step hlast

/-! ## Terminal statuses -/

/-- An order that is CANCELLED or REFUNDED stays so. -/
def Terminal (s s' : OfficeDb) : Prop := ∀ k o, s.partnerOrders.find? k = some o →
  o.status = .cancelled ∨ o.status = .refunded →
    ∃ o', s'.partnerOrders.find? k = some o' ∧ o'.status = o.status

theorem TakenOn.terminal {o o' : PartnerOrder} (h : TakenOn o o' s s')
    (hopen : o.status ≠ .cancelled ∧ o.status ≠ .refunded) : Terminal s s' := by
  intro k o₁ ho₁ hstatus
  rw [h.after k]
  split
  · rename_i hk
    rw [hk, h.id, h.before, Option.some.injEq] at ho₁
    subst ho₁
    exact absurd hstatus (by simp [hopen])
  · exact ⟨o₁, ho₁, rfl⟩

theorem terminal_step (h : OrderStep s s') : Terminal s s' := by
  cases h.change with
  | none horders => exact fun k o ho _ => ⟨o, horders ▸ ho, rfl⟩
  | register o hnew _ horders =>
    intro k o₁ ho₁ _
    rw [horders k, if_neg]
    · exact ⟨o₁, ho₁, rfl⟩
    · rintro rfl
      rw [hnew] at ho₁
      cases ho₁
  | confirm o o' htaken hpending => exact htaken.terminal (by simp [hpending])
  | cancel o o' htaken hpending => exact htaken.terminal (by simp [hpending])
  | refund o o' htaken hconfirmed =>
    exact htaken.terminal (by rcases hconfirmed with h | h <;> simp [h])
  | settle st auto ids _ hconfirmed _ horders =>
    intro k o ho hstatus
    rw [horders k, ho, Option.map_some, if_neg]
    · exact ⟨o, rfl, rfl⟩
    · intro hmem
      obtain ⟨o', ho', hconfirmed'⟩ := hconfirmed k (Table.key_of_find? ho ▸ hmem)
      rw [ho, Option.some.injEq] at ho'
      subst ho'
      simp [hconfirmed'] at hstatus

theorem terminal_run (h : Relation.ReflTransGen OrderStep s s') : Terminal s s' := by
  induction h with
  | refl => exact fun k o ho _ => ⟨o, ho, rfl⟩
  | tail _ hlast ih =>
    intro k o ho hstatus
    obtain ⟨o₁, ho₁, hstatus₁⟩ := ih k o ho hstatus
    obtain ⟨o₂, ho₂, hstatus₂⟩ := terminal_step hlast k o₁ ho₁ (hstatus₁ ▸ hstatus)
    exact ⟨o₂, ho₂, hstatus₂.trans hstatus₁⟩

end PartnerOrdersService

end ArkanGold
