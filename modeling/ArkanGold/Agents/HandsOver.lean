import ArkanGold.Agents.AgentPurchaseService
import ArkanGold.Lib.Demand
import ArkanGold.Store.OfficeRules

/-!
# What an approval hands over

- `HandsOver`: the bars that an approval changes are those that were named, as many of each weight
  and karat as were ordered; they lay free in the vault, and each of them moves to the agent once,
  at the premium of the item that it was ordered by.
- The bars of an item go to the agent with the first item of their weight and karat
  (`stamp_bar`): a later item finds none that is still free, and its premium is lost.
- `approve_iff`: an approval that fails changes nothing; one that succeeds hands over the order
  exactly when items of one weight and karat have one premium.
-/

namespace ArkanGold

namespace AgentPurchaseService

open AgentAccountingService

variable {s s' : OfficeDb}

/-! ## What is to be handed over -/

/-- The bars that differ from what they were. -/
def allocated (s s' : OfficeDb) : List HologramCode :=
  s'.bars.rows.filter fun b => s.bars.find? b.id ≠ some b

/-- The number of bars of a weight and karat that were ordered. -/
def orderedOf (items : List AgentPurchaseItem) (weight : ℤ) (karat : GoldPurityKarat) : ℕ :=
  ((items.filter fun i => i.weightGrams = weight ∧ i.purityKarat = karat).map (·.quantity)).sum

/-- The number of bars of a weight and karat that were ordered at a premium. -/
def orderedAt (items : List AgentPurchaseItem) (weight : ℤ) (karat : GoldPurityKarat)
    (premium : ℤ) : ℕ :=
  ((items.filter fun i => (i.weightGrams = weight ∧ i.purityKarat = karat) ∧
    i.unitPremiumRial = premium).map (·.quantity)).sum

/-- The bar lies free in the vault, and no incident is reported for it. -/
structure FreeInVault (s : OfficeDb) (b : HologramCode) : Prop where
  unassigned : b.status = .unassigned
  unsold : b.shopOrderItemId = none
  unowned : s.activeOwnerships b.id = []
  unreported : s.findActiveIncident b.id = none

/-- The bar moves to the agent and is otherwise what it was. -/
def Moved (agentId : ℕ) (b b' : HologramCode) : Prop :=
  ∃ now premium, b' = { b with
    status := .agentOwned
    agentId := some agentId
    agentAllocatedAt := some now
    agentPremiumRial := premium }

/-- An approval hands over exactly the order. -/
structure HandsOver (order : AgentPurchaseOrder) (codes : List String) (s s' : OfficeDb) :
    Prop where
  /-- as many bars of each weight and karat as were ordered -/
  kinds : ∀ weight karat, ((allocated s s').filter fun b =>
    b.weightGrams = some weight ∧ b.purityKarat = some karat).length =
      orderedOf order.items weight karat
  /-- the bars that were named, each once -/
  named : ((allocated s s').map (·.code)).Perm codes
  once : ((allocated s s').map (·.id)).Nodup
  moved : ∀ b' ∈ allocated s s', ∃ b, s.bars.find? b'.id = some b ∧ FreeInVault s b ∧
    Moved order.agentId b b'
  /-- one movement of stock for each bar -/
  movements : ∃ ms, s'.agentMovements.rows = s.agentMovements.rows ++ ms ∧
    ms.map (·.hologramCodeId) = (allocated s s').map (·.id) ∧
      ∀ m ∈ ms, m.agentId = order.agentId ∧ m.type = .purchase
  /-- as many bars at each premium as were ordered at it -/
  premiums : ∀ weight karat premium, ((allocated s s').filter fun b =>
    (b.weightGrams = some weight ∧ b.purityKarat = some karat) ∧
      b.agentPremiumRial = some premium).length = orderedAt order.items weight karat premium

/-- The order as a demand for bars of a weight and karat. -/
def lineOf (it : AgentPurchaseItem) : Demand.Line (ℤ × GoldPurityKarat) ℤ :=
  ⟨(it.weightGrams, it.purityKarat), it.quantity, it.unitPremiumRial⟩

/-- Items of one weight and karat have the premium of the first of them. -/
def OnePremium (items : List AgentPurchaseItem) : Prop := Demand.OnePrice (items.map lineOf)

instance (items : List AgentPurchaseItem) : Decidable (OnePremium items) :=
  inferInstanceAs (Decidable (Demand.OnePrice (items.map lineOf)))

/-- The weight and the karat of a bar that has them. -/
def kindOf (b : HologramCode) : ℤ × GoldPurityKarat :=
  (b.weightGrams.getD 0, b.purityKarat.getD .k18)

theorem asked_lines (items : List AgentPurchaseItem) (weight : ℤ) (karat : GoldPurityKarat) :
    Demand.asked (items.map lineOf) (weight, karat) = orderedOf items weight karat := by
  simp [Demand.asked, orderedOf, List.filter_map, Function.comp_def, lineOf]

theorem askedAt_lines (items : List AgentPurchaseItem) (weight : ℤ) (karat : GoldPurityKarat)
    (premium : ℤ) :
    Demand.askedAt (items.map lineOf) (weight, karat) premium =
      orderedAt items weight karat premium := by
  simp only [Demand.askedAt, orderedAt, List.filter_map, Function.comp_def, lineOf, List.map_map,
    Prod.mk.injEq]

theorem total_lines (items : List AgentPurchaseItem) :
    Demand.total (items.map lineOf) = totalQty items := by
  simp [Demand.total, totalQty, Function.comp_def, lineOf]

theorem needed_eq (items : List AgentPurchaseItem) (it : AgentPurchaseItem) :
    needed items it = Demand.asked (items.map lineOf) (lineOf it).kind := by
  rw [lineOf, asked_lines, needed, orderedOf]
  congr 2
  refine List.filter_congr fun x _ => ?_
  rw [sameKind, Bool.and_comm, Bool.decide_and]
  rfl

/-! ## The bars that are taken -/

/-- The weight and the karat of a bar are known. -/
structure Weighed (b : HologramCode) : Prop where
  weight : ∃ w, b.weightGrams = some w
  karat : ∃ k, b.purityKarat = some k

theorem Weighed.kindOf_iff {b : HologramCode} (h : Weighed b) (weight : ℤ)
    (karat : GoldPurityKarat) :
    kindOf b = (weight, karat) ↔ b.weightGrams = some weight ∧ b.purityKarat = some karat := by
  obtain ⟨⟨w, hw⟩, ⟨k, hk⟩⟩ := h
  simp [kindOf, hw, hk]

theorem Weighed.matchesItem_iff {b : HologramCode} (h : Weighed b) (it : AgentPurchaseItem) :
    matchesItem it b = true ↔ kindOf b = (lineOf it).kind := by
  obtain ⟨⟨w, hw⟩, ⟨k, hk⟩⟩ := h
  simp [matchesItem, kindOf, lineOf, hw, hk, and_comm]

theorem free_of_isBad {b : HologramCode} (h : isBad s b = false) :
    FreeInVault s b ∧ Weighed b := by
  simp only [isBad, Bool.or_eq_false_iff, bne_eq_false_iff_eq, Option.isNone_eq_false_iff,
    Option.isSome_eq_false_iff, Option.isNone_iff_eq_none, Bool.not_eq_false',
    List.isEmpty_iff, Option.isSome_iff_exists] at h
  obtain ⟨⟨⟨⟨⟨hstatus, hweight⟩, hkarat⟩, hitem⟩, howned⟩, hincident⟩ := h
  exact ⟨⟨hstatus, hitem, howned, hincident⟩, ⟨hweight, hkarat⟩⟩

/-- The bars that `takeBars` returns. -/
structure Taken (s : OfficeDb) (items : List AgentPurchaseItem) (codes : List String)
    (bars : List HologramCode) : Prop where
  eq : bars = barsWithCodes s codes
  length : codes.length = totalQty items
  found : ∀ c ∈ codes, ∃ b ∈ bars, b.code = c
  free : ∀ b ∈ bars, FreeInVault s b
  weighed : ∀ b ∈ bars, Weighed b
  matching : ∀ it ∈ items, (bars.filter (matchesItem it)).length = needed items it

@[simp] theorem ok_lockBarsByCode {codes : List String} {u : Unit} :
    (OfficeStmt.lockBarsByCode codes).Ok s u s' ↔ s' = s := by
  simp only [OfficeStmt.lockBarsByCode, Block.ok_bind, Block.ok_get, Block.ok_lockAll]
  constructor
  · rintro ⟨_, _, ⟨rfl, rfl⟩, rfl⟩
    rfl
  · rintro rfl
    exact ⟨_, _, ⟨rfl, rfl⟩, rfl⟩

theorem takeBars_ok {items : List AgentPurchaseItem} {codes : List String}
    {bars : List HologramCode} (h : (takeBars items codes).Ok s bars s') :
    s' = s ∧ Taken s items codes bars := by
  simp only [takeBars, Block.ok_bind, Block.ok_check, Block.ok_get, ok_lockBarsByCode,
    Block.ok_ofExcept, Block.ok_pure, beq_iff_eq, List.isEmpty_iff] at h
  obtain ⟨_, _, ⟨hlength, rfl⟩, _, _, rfl, _, _, ⟨rfl, rfl⟩, _, _, ⟨hmissing, rfl⟩, _, _,
    ⟨hbad, rfl⟩, _, _, ⟨hmatching, rfl⟩, rfl, rfl⟩ := h
  have hgood : ∀ b ∈ barsWithCodes s' codes, isBad s' b = false := fun b hb =>
    Bool.eq_false_iff.mpr (List.filter_eq_nil_iff.mp hbad b hb)
  refine ⟨rfl, rfl, hlength, fun c hc => ?_, fun b hb => (free_of_isBad (hgood b hb)).1,
    fun b hb => (free_of_isBad (hgood b hb)).2, fun it hit => ?_⟩
  · have hany := List.filter_eq_nil_iff.mp hmissing c hc
    simpa using hany
  · unfold assertMatching at hmatching
    split at hmatching
    · rename_i hnone
      simpa using List.find?_eq_none.mp hnone it hit
    · cases hmatching

section Taking

variable {items : List AgentPurchaseItem} {codes : List String} {bars : List HologramCode}

theorem Taken.mem (h : Taken s items codes bars) {b : HologramCode} :
    b ∈ bars ↔ b ∈ s.bars.rows ∧ b.code ∈ codes := by
  rw [h.eq, barsWithCodes, List.mem_filter, List.contains_iff_mem]

theorem Taken.ids_nodup (h : Taken s items codes bars) : (bars.map (·.id)).Nodup := by
  rw [h.eq]
  exact s.bars.nodup.sublist (List.filter_sublist.map _)

theorem Taken.subperm (h : Taken s items codes bars)
    (hcodes : (s.bars.rows.map (·.code)).Nodup) : (bars.map (·.code)).Subperm codes := by
  have hnodup : (bars.map (·.code)).Nodup := by
    rw [h.eq]
    exact hcodes.sublist (List.filter_sublist.map _)
  refine List.subperm_of_subset hnodup fun c hc => ?_
  obtain ⟨b, hb, rfl⟩ := List.mem_map.mp hc
  exact (h.mem.mp hb).2

/-- The bars are of the weights and karats that were ordered. -/
theorem Taken.kinds (h : Taken s items codes bars)
    (hcodes : (s.bars.rows.map (·.code)).Nodup) :
    (bars.map kindOf).Perm (Demand.kinds (items.map lineOf)) := by
  refine Demand.kinds_of_counts ?_ ?_
  · intro l hl
    obtain ⟨it, hit, rfl⟩ := List.mem_map.mp hl
    rw [← needed_eq, ← h.matching it hit]
    congr 1
    refine List.filter_congr fun b hb => ?_
    rw [Bool.eq_iff_iff, decide_eq_true_iff, (h.weighed b hb).matchesItem_iff]
  · have hlength := (h.subperm hcodes).length_le
    rwa [List.length_map, h.length, ← total_lines] at hlength

/-- The bars are those that were named, each once. -/
theorem Taken.named (h : Taken s items codes bars)
    (hcodes : (s.bars.rows.map (·.code)).Nodup) : (bars.map (·.code)).Perm codes := by
  refine (h.subperm hcodes).perm_of_length_le ?_
  rw [List.length_map, h.length, ← total_lines, Demand.length_of_perm (h.kinds hcodes)]

/-- Every bar matches an item. -/
theorem Taken.item (h : Taken s items codes bars) (hcodes : (s.bars.rows.map (·.code)).Nodup)
    {b : HologramCode} (hb : b ∈ bars) :
    ∃ it, items.find? (fun it => matchesItem it b) = some it ∧ matchesItem it b = true := by
  obtain ⟨l, hl, hkind⟩ := Demand.line_of_perm (h.kinds hcodes) hb
  obtain ⟨it, hit, rfl⟩ := List.mem_map.mp hl
  have hsome : (items.find? fun it => matchesItem it b).isSome = true := by
    rw [List.find?_isSome]
    exact ⟨it, hit, (h.weighed b hb).matchesItem_iff it |>.mpr hkind.symm⟩
  obtain ⟨it', hit'⟩ := Option.isSome_iff_exists.mp hsome
  exact ⟨it', hit', List.find?_some (p := fun it => matchesItem it b) hit'⟩

end Taking

/-! ## The allocation -/

section Allocation

variable {agentId : ℕ} {now : ℤ} {bars : List HologramCode}

/-- A bar as it goes to the agent with an item. -/
def given (agentId : ℕ) (now : ℤ) (it : AgentPurchaseItem) (b : HologramCode) : HologramCode :=
  { b with
    status := .agentOwned
    agentId := some agentId
    agentAllocatedAt := some now
    agentPremiumRial := some it.unitPremiumRial }

/-- The bar is written for the item: it is one of those that match it and is still free. -/
def takes (bars : List HologramCode) (it : AgentPurchaseItem) (b : HologramCode) : Bool :=
  ((bars.filter (matchesItem it)).map (·.id)).contains b.id && b.status == .unassigned

/-- What the updates for the items make of a bar, one after the other. -/
def stamp (agentId : ℕ) (now : ℤ) (bars : List HologramCode) :
    List AgentPurchaseItem → HologramCode → HologramCode
  | [], b => b
  | it :: items, b =>
    stamp agentId now bars items (if takes bars it b then given agentId now it b else b)

theorem allocateItem_ok {it : AgentPurchaseItem} {u : Unit}
    (h : (allocateItem agentId now bars it).Ok s u s') :
    s' = s.setBars (s.bars.updateWhere (takes bars it) (given agentId now it)) :=
  OfficeDb.barRows.ok_updateMany.mp h

theorem allocateItems_ok {items : List AgentPurchaseItem} {u : Unit}
    (h : (Block.forEach (allocateItem agentId now bars) items).Ok s u s') :
    ∃ t, s' = s.setBars t ∧ t.rows = s.bars.rows.map (stamp agentId now bars items) := by
  induction items generalizing s with
  | nil =>
    obtain ⟨-, rfl⟩ := Block.ok_pure.mp h
    exact ⟨s'.bars, rfl, (List.map_id _).symm⟩
  | cons it items ih =>
    obtain ⟨_, s₁, h₁, h₂⟩ := Block.ok_bind.mp h
    obtain rfl := allocateItem_ok h₁
    obtain ⟨t, rfl, hrows⟩ := ih h₂
    refine ⟨t, rfl, hrows.trans ?_⟩
    simp only [OfficeDb.setBars_bars, Table.updateWhere, List.map_map]
    rfl

theorem stamp_owned {items : List AgentPurchaseItem} {b : HologramCode}
    (h : b.status ≠ .unassigned) : stamp agentId now bars items b = b := by
  induction items with
  | nil => rfl
  | cons it items ih =>
    have hnot : takes bars it b = false := by simp [takes, h]
    rw [stamp, hnot]
    exact ih

theorem stamp_other {items : List AgentPurchaseItem} {b : HologramCode}
    (h : b.id ∉ bars.map (·.id)) : stamp agentId now bars items b = b := by
  induction items with
  | nil => rfl
  | cons it items ih =>
    have hnot : takes bars it b = false := by
      rw [takes, Bool.and_eq_false_iff]
      left
      rw [Bool.eq_false_iff, ne_eq, List.contains_iff_mem]
      exact fun hmem => h ((List.filter_sublist.map _).subset hmem)
    rw [stamp, hnot]
    exact ih

/-- A free bar goes to the agent with the first item that it matches. -/
theorem stamp_bar {items : List AgentPurchaseItem} {b : HologramCode}
    (hids : (bars.map (·.id)).Nodup) (hb : b ∈ bars) (hfree : b.status = .unassigned) :
    stamp agentId now bars items b =
      ((items.find? fun it => matchesItem it b).map fun it => given agentId now it b).getD b := by
  induction items with
  | nil => rfl
  | cons it items ih =>
    have htakes : takes bars it b = matchesItem it b := by
      rw [takes, hfree, beq_self_eq_true, Bool.and_true, Bool.eq_iff_iff, List.contains_iff_mem,
        List.mem_map]
      constructor
      · rintro ⟨b', hb', hid⟩
        obtain ⟨hmem, hmatch⟩ := List.mem_filter.mp hb'
        rwa [← List.inj_on_of_nodup_map hids hmem hb hid]
      · exact fun hmatch => ⟨b, List.mem_filter.mpr ⟨hb, hmatch⟩, rfl⟩
    rw [stamp, htakes, List.find?_cons]
    cases hmatch : matchesItem it b with
    | false => exact ih
    | true => exact stamp_owned (by simp [given])

end Allocation

/-! ## What the other statements leave alone -/

/-- Neither bars nor movements of stock change. -/
def Beside (s t : OfficeDb) : Prop := t.bars = s.bars ∧ t.agentMovements = s.agentMovements

theorem Beside.refl (s : OfficeDb) : Beside s s := ⟨rfl, rfl⟩

theorem Beside.trans {s t u : OfficeDb} (h : Beside s t) (h' : Beside t u) : Beside s u :=
  ⟨h'.1.trans h.1, h'.2.trans h.2⟩

theorem beside_ok {α : Type} {x : OfficeStmt α} {a : α} (hx : x.Within Beside)
    (h : x.Ok s a s') : Beside s s' :=
  hx.ok Beside.refl (fun _ _ _ => Beside.trans) (fun _ => ⟨rfl, rfl⟩) h

theorem within_nextNumber (cal : Calendar) (label : String) :
    (OfficeStmt.nextNumber cal label).Within Beside :=
  OfficeStmt.within_nextNumber (fun _ _ => ⟨rfl, rfl⟩) cal label

theorem within_bookSale {order : AgentPurchaseOrder} {agent : Agent} {bars : List HologramCode} :
    (bookSale order agent bars).Within Beside :=
  Block.within_bind Block.within_get fun _ =>
    OfficeStmt.within_postJournal fun _ _ _ => ⟨rfl, rfl⟩

theorem within_billCredit {order : AgentPurchaseOrder} : (billCredit order).Within Beside := by
  unfold billCredit
  refine Block.within_ite ?_ Block.within_pure
  refine Block.within_bind Block.within_lock fun _ => ?_
  refine Block.within_bind Block.within_get fun _ => ?_
  refine Block.within_bind Block.within_getOrFail fun agent => ?_
  refine Block.within_bind (OfficeStmt.within_update fun _ _ => ⟨rfl, rfl⟩) fun _ => ?_
  exact Block.within_bind (OfficeStmt.within_create (fun _ _ => ⟨rfl, rfl⟩) _)
    fun _ => Block.within_pure

theorem within_issue {cal : Calendar} {order : AgentPurchaseOrder} {items : List AgentInvoiceItem}
    {label : String} : (issue cal order items label).Within Beside := by
  refine Block.within_bind Block.within_check fun _ => ?_
  refine Block.within_bind Block.within_get fun s => ?_
  cases s.agentInvoices.rows.find? fun i => i.orderId == order.id with
  | some existing => exact Block.within_pure
  | none =>
    refine Block.within_bind Block.within_check fun _ => ?_
    refine Block.within_bind Block.within_get fun _ => ?_
    refine Block.within_bind Block.within_getOrFail fun _ => ?_
    refine Block.within_bind (within_nextNumber cal _) fun _ => ?_
    exact OfficeStmt.within_create (fun _ _ => ⟨rfl, rfl⟩) _

theorem within_issueAgentPurchaseInvoice {cal : Calendar} {orderId : ℕ}
    {bars : List HologramCode} {label : String} :
    (issueAgentPurchaseInvoice cal orderId bars label).Within Beside :=
  Block.within_bind Block.within_get fun _ => Block.within_bind Block.within_getOrFail fun _ =>
    within_issue

theorem within_consumeProforma {order : AgentPurchaseOrder} :
    (consumeProforma order).Within Beside := by
  unfold consumeProforma
  split
  · exact OfficeDb.invoiceRows.within_updateMany fun _ _ => ⟨rfl, rfl⟩
  · exact Block.within_pure

/-! ## The transaction -/

/-- Every bar moves once. -/
theorem moveBars_ok {order : AgentPurchaseOrder} {voucherNumber : String} {adminId : ℕ}
    {bars : List HologramCode} {u : Unit}
    (h : (Block.forEach (moveBar order voucherNumber adminId) bars).Ok s u s') :
    s'.bars = s.bars ∧ ∃ ms, s'.agentMovements.rows = s.agentMovements.rows ++ ms ∧
      ms.map (·.hologramCodeId) = bars.map (·.id) ∧
        ∀ m ∈ ms, m.agentId = order.agentId ∧ m.type = .purchase := by
  induction bars generalizing s with
  | nil =>
    obtain ⟨-, rfl⟩ := Block.ok_pure.mp h
    exact ⟨rfl, [], (List.append_nil _).symm, rfl, by simp⟩
  | cons b bars ih =>
    obtain ⟨_, s₁, h₁, h₂⟩ := Block.ok_bind.mp h
    obtain ⟨_, _, h₁, h₃⟩ := Block.ok_bind.mp h₁
    obtain ⟨-, rfl⟩ := Block.ok_pure.mp h₃
    obtain ⟨t, m, hm, -, hnew, rfl, rfl⟩ := OfficeStmt.create_ok (fun _ => rfl) h₁
    obtain ⟨hbars, ms, hrows, hids, hms⟩ := ih h₂
    refine ⟨hbars, m :: ms, ?_, ?_, ?_⟩
    · rw [hrows, List.append_cons]
      congr 1
      exact Table.rows_insert hnew
    · rw [List.map_cons, List.map_cons, hids, hm]
    · exact List.forall_mem_cons.mpr ⟨by rw [hm]; exact ⟨rfl, rfl⟩, hms⟩

/-- What an approval has read and written. -/
structure Approval (order : AgentPurchaseOrder) (codes : List String) (bars : List HologramCode)
    (now : ℤ) (s s' : OfficeDb) : Prop where
  taken : Taken s order.items codes bars
  stamped : s'.bars.rows = s.bars.rows.map (stamp order.agentId now bars order.items)
  movements : ∃ ms, s'.agentMovements.rows = s.agentMovements.rows ++ ms ∧
    ms.map (·.hologramCodeId) = bars.map (·.id) ∧
      ∀ m ∈ ms, m.agentId = order.agentId ∧ m.type = .purchase

theorem lockOrder_ok {orderId : ℕ} {r : AgentPurchaseOrder × Agent}
    (h : (lockOrder orderId).Ok s r s') : s' = s ∧ s.agentPurchases.find? orderId = some r.1 := by
  simp only [lockOrder, Block.ok_bind, Block.ok_lock, Block.ok_get, Block.ok_getOrFail,
    Block.ok_check, Block.ok_pure] at h
  obtain ⟨_, _, rfl, _, _, ⟨rfl, rfl⟩, order, _, ⟨horder, rfl⟩, agent, _, ⟨-, rfl⟩, _, _,
    ⟨-, rfl⟩, rfl, rfl⟩ := h
  exact ⟨rfl, horder⟩

theorem allocate_ok {order : AgentPurchaseOrder} {now : ℤ} {bars : List HologramCode} {u : Unit}
    (h : (allocate order now bars).Ok s u s') :
    ∃ t, s' = s.setBars t ∧
      t.rows = s.bars.rows.map (stamp order.agentId now bars order.items) := by
  obtain ⟨_, s₁, hitems, h⟩ := Block.ok_bind.mp h
  simp only [Block.ok_bind, Block.ok_get, Block.ok_check] at h
  obtain ⟨_, _, ⟨rfl, rfl⟩, -, rfl⟩ := h
  exact allocateItems_ok hitems

theorem updated_ok {k : ℕ} {f : AgentPurchaseOrder → AgentPurchaseOrder} {hf : ∀ o, (f o).id = o.id}
    {u : Unit} (h : (OfficeStmt.update OfficeDb.agentPurchaseRows k f hf).Ok s u s') :
    (∃ o, s'.agentPurchases.find? k = some o) ∧ Beside s s' := by
  obtain ⟨t, o, hfind, rfl, rfl⟩ := OfficeStmt.update_ok h
  refine ⟨⟨f o, ?_⟩, rfl, rfl⟩
  exact (Table.find?_update_self s.agentPurchases k f hf).trans (congrArg _ hfind)

theorem approveOrder_ok {cal : Calendar} {orderId adminId : ℕ} {adminNote : Option String}
    {codes : List String} {u : Unit}
    (h : (approveOrder cal orderId adminId adminNote codes).Ok s u s') :
    (∃ o, s'.agentPurchases.find? orderId = some o) ∧
      ∃ order bars now, s.agentPurchases.find? orderId = some order ∧
        Approval order codes bars now s s' := by
  simp only [approveOrder, Block.ok_bind, Block.ok_get] at h
  obtain ⟨⟨order, agent⟩, s₁, hlock, bars, s₂, htake, _, _, ⟨rfl, rfl⟩, voucher, s₃, hnumber, _, s₄,
    hallocate, _, s₅, hbook, _, s₆, hmove, _, s₇, hbill, _, s₈, hissue, _, s₉, hconsume,
    hupdate⟩ := h
  obtain ⟨rfl, horder⟩ := lockOrder_ok hlock
  obtain ⟨rfl, htaken⟩ := takeBars_ok htake
  obtain ⟨hbars₃, hmoves₃⟩ := beside_ok (within_nextNumber _ _) hnumber
  obtain ⟨t, rfl, hrows⟩ := allocate_ok hallocate
  obtain ⟨hbars₅, hmoves₅⟩ := beside_ok within_bookSale hbook
  obtain ⟨hbars₆, ms, hmoves₆, hids, hms⟩ := moveBars_ok hmove
  obtain ⟨hbars₇, hmoves₇⟩ := beside_ok within_billCredit hbill
  obtain ⟨hbars₈, hmoves₈⟩ := beside_ok within_issueAgentPurchaseInvoice hissue
  obtain ⟨hbars₉, hmoves₉⟩ := beside_ok within_consumeProforma hconsume
  obtain ⟨hfound, hrest⟩ := updated_ok hupdate
  have hid : order.id = orderId := Table.key_of_find? horder
  have hbars : s'.bars = t := by
    rw [hrest.1, hbars₉, hbars₈, hbars₇, hbars₆, hbars₅]
    rfl
  have hmoves : s'.agentMovements.rows = s₃.agentMovements.rows ++ ms := by
    rw [hrest.2, hmoves₉, hmoves₈, hmoves₇, hmoves₆, hmoves₅]
    rfl
  rw [hbars₃, ← hbars] at hrows
  rw [hmoves₃] at hmoves
  rw [hid] at hfound
  exact ⟨hfound, order, bars, _, horder, htaken, hrows, ms, hmoves, hids, hms⟩

/-! ## What is handed over -/

theorem stamp_id {agentId : ℕ} {now : ℤ} {bars : List HologramCode}
    (items : List AgentPurchaseItem) (b : HologramCode) :
    (stamp agentId now bars items b).id = b.id := by
  induction items generalizing b with
  | nil => rfl
  | cons it items ih =>
    rw [stamp, ih]
    split <;> rfl

section Handing

variable {order : AgentPurchaseOrder} {codes : List String} {bars : List HologramCode} {now : ℤ}

/-- A bar that was taken goes to the agent with the first item that it matches. -/
theorem Approval.given_bar (h : Approval order codes bars now s s')
    (hcodes : (s.bars.rows.map (·.code)).Nodup) {b : HologramCode} (hb : b ∈ bars) :
    ∃ it, order.items.find? (fun it => matchesItem it b) = some it ∧
      stamp order.agentId now bars order.items b = given order.agentId now it b := by
  obtain ⟨it, hfind, -⟩ := h.taken.item hcodes hb
  refine ⟨it, hfind, ?_⟩
  rw [stamp_bar h.taken.ids_nodup hb (h.taken.free b hb).unassigned, hfind]
  rfl

/-- The bars that differ are those that were taken. -/
theorem Approval.allocated_eq (h : Approval order codes bars now s s')
    (hcodes : (s.bars.rows.map (·.code)).Nodup) :
    allocated s s' = bars.map (stamp order.agentId now bars order.items) := by
  rw [allocated, h.stamped, List.filter_map]
  refine congrArg _ ((List.filter_congr fun b hb => ?_).trans h.taken.eq.symm)
  rw [Function.comp_apply, stamp_id, Table.find?_of_mem hb, Bool.eq_iff_iff, decide_eq_true_iff,
    List.contains_iff_mem]
  by_cases hmem : b ∈ bars
  · obtain ⟨it, -, hgiven⟩ := h.given_bar hcodes hmem
    refine iff_of_true (fun hsame => ?_) (h.taken.mem.mp hmem).2
    have hstatus := congrArg HologramCode.status (Option.some.inj hsame)
    rw [hgiven, (h.taken.free b hmem).unassigned] at hstatus
    cases hstatus
  · have hother : b.id ∉ bars.map (·.id) := by
      intro hid
      obtain ⟨b', hb', hid⟩ := List.mem_map.mp hid
      rw [List.inj_on_of_nodup_map s.bars.nodup (h.taken.mem.mp hb').1 hb hid] at hb'
      exact hmem hb'
    rw [stamp_other hother]
    exact iff_of_false (fun hne => hne rfl) fun hc => hmem (h.taken.mem.mpr ⟨hb, hc⟩)

/-- The premium of a bar that was taken is that of the first item of its weight and karat. -/
theorem Approval.premium (h : Approval order codes bars now s s')
    (hcodes : (s.bars.rows.map (·.code)).Nodup) {b : HologramCode} (hb : b ∈ bars) :
    (stamp order.agentId now bars order.items b).agentPremiumRial =
      Demand.firstPrice (order.items.map lineOf) (kindOf b) := by
  obtain ⟨it, hfind, hgiven⟩ := h.given_bar hcodes hb
  have hlines : (order.items.find? fun it => (lineOf it).kind = kindOf b) = some it := by
    rw [← hfind]
    congr 1
    funext it
    rw [Bool.eq_iff_iff, decide_eq_true_iff, (h.taken.weighed b hb).matchesItem_iff, eq_comm]
  rw [hgiven, Demand.firstPrice, List.find?_map]
  simp only [Function.comp_def]
  rw [hlines]
  rfl

/-- What the allocation leaves of the weight and the karat of a bar. -/
theorem Approval.kind (h : Approval order codes bars now s s')
    (hcodes : (s.bars.rows.map (·.code)).Nodup) {b : HologramCode} (hb : b ∈ bars) (weight : ℤ)
    (karat : GoldPurityKarat) :
    ((stamp order.agentId now bars order.items b).weightGrams = some weight ∧
      (stamp order.agentId now bars order.items b).purityKarat = some karat) ↔
      kindOf b = (weight, karat) := by
  obtain ⟨it, -, hgiven⟩ := h.given_bar hcodes hb
  rw [hgiven, (h.taken.weighed b hb).kindOf_iff]
  rfl

/-- Bars at each premium as ordered, unless items of one weight and karat differ in it. -/
theorem Approval.premiums_iff (h : Approval order codes bars now s s')
    (hcodes : (s.bars.rows.map (·.code)).Nodup) :
    (∀ weight karat premium, ((allocated s s').filter fun b =>
      (b.weightGrams = some weight ∧ b.purityKarat = some karat) ∧
        b.agentPremiumRial = some premium).length = orderedAt order.items weight karat premium) ↔
      OnePremium order.items := by
  rw [OnePremium, ← Demand.charged_iff (h.taken.kinds hcodes) fun b hb => h.premium hcodes hb,
    Prod.forall]
  refine forall_congr' fun weight => forall_congr' fun karat => forall_congr' fun premium => ?_
  rw [h.allocated_eq hcodes, List.filter_map, List.length_map, askedAt_lines]
  have hfilter : bars.filter ((fun b => decide ((b.weightGrams = some weight ∧
        b.purityKarat = some karat) ∧ b.agentPremiumRial = some premium)) ∘
        stamp order.agentId now bars order.items) =
      bars.filter fun b => kindOf b = (weight, karat) ∧
        (stamp order.agentId now bars order.items b).agentPremiumRial = some premium := by
    refine List.filter_congr fun b hb => ?_
    rw [Function.comp_apply, decide_eq_decide, h.kind hcodes hb]
  rw [hfilter]

theorem Approval.handsOver_iff (h : Approval order codes bars now s s')
    (hcodes : (s.bars.rows.map (·.code)).Nodup) :
    HandsOver order codes s s' ↔ OnePremium order.items := by
  rw [← h.premiums_iff hcodes]
  refine ⟨fun hands => hands.premiums, fun hpremiums => ?_⟩
  have hallocated := h.allocated_eq hcodes
  have hcode : ∀ b ∈ bars, (stamp order.agentId now bars order.items b).code = b.code := by
    intro b hb
    obtain ⟨it, -, hgiven⟩ := h.given_bar hcodes hb
    rw [hgiven]
    rfl
  have hids : (allocated s s').map (·.id) = bars.map (·.id) := by
    rw [hallocated, List.map_map]
    exact List.map_congr_left fun b _ => stamp_id _ b
  refine ⟨fun weight karat => ?_, ?_, ?_, fun b' hb' => ?_, ?_, hpremiums⟩
  · rw [hallocated, List.filter_map, List.length_map, ← asked_lines,
      ← Demand.filter_of_perm (h.taken.kinds hcodes)]
    congr 1
    refine List.filter_congr fun b hb => ?_
    rw [Function.comp_apply, decide_eq_decide, h.kind hcodes hb]
  · rw [hallocated, List.map_map]
    have hmap : bars.map ((·.code) ∘ stamp order.agentId now bars order.items) =
        bars.map (·.code) := List.map_congr_left hcode
    rw [hmap]
    exact h.taken.named hcodes
  · rw [hids]
    exact h.taken.ids_nodup
  · rw [hallocated] at hb'
    obtain ⟨b, hb, rfl⟩ := List.mem_map.mp hb'
    obtain ⟨it, -, hgiven⟩ := h.given_bar hcodes hb
    refine ⟨b, ?_, h.taken.free b hb, now, some it.unitPremiumRial, hgiven⟩
    rw [stamp_id]
    exact Table.find?_of_mem (h.taken.mem.mp hb).1
  · rw [hids]
    exact h.movements

end Handing

/-! ## Every approval -/

/-- An order that is there is read. -/
theorem getOrder_ends {orderId : ℕ} {o : AgentPurchaseOrder}
    {r : Except ApiError (AgentPurchaseOrder × List HologramCode)}
    (ho : s.agentPurchases.find? orderId = some o) (h : (getOrder orderId).Ends s r s') :
    (∃ a, r = .ok a) ∧ s' = s := by
  have hexec : (getOrder orderId).exec s = (.ok (o, ((o.voucherNumber.filter (· != "")).map
      (barsOfVoucher s)).getD []), s) := by
    show ((Call.getOrFail (s.agentPurchases.find? orderId) _).bind _).exec s = _
    rw [ho]
    rfl
  obtain ⟨hr, hs⟩ := Prod.mk.inj (hexec.symm.trans h)
  exact ⟨⟨_, hr.symm⟩, hs.symm⟩

/-- An approval that fails has changed nothing, and one that succeeds has handed over exactly the
order if and only if items of one weight and karat have one premium. -/
theorem approve_iff {cal : Calendar} {orderId adminId : ℕ} {dto : ApprovePurchaseOrderDto}
    {r : Except ApiError (AgentPurchaseOrder × List HologramCode)}
    (hcodes : (s.bars.rows.map (·.code)).Nodup)
    (h : (approve cal orderId adminId dto).Ends s r s') :
    (∀ e, r = .error e → s' = s) ∧
      ∀ a, r = .ok a → ∃ order, s.agentPurchases.find? orderId = some order ∧
        (HandsOver order (dto.codes.map trimText) s s' ↔ OnePremium order.items) := by
  obtain ⟨_, _, hcheck, hrest⟩ | ⟨e, hcheck, rfl⟩ := Call.ends_bind.mp h
  · obtain ⟨-, rfl⟩ := Call.ends_check.mp hcheck
    obtain ⟨_, t, htx, hread⟩ | ⟨e, htx, rfl⟩ := Call.ends_bind.mp hrest
    · obtain ⟨_, -, hok⟩ | ⟨_, herror, -⟩ := Call.ends_transaction.mp htx
      · obtain ⟨⟨o, ho⟩, order, bars, now, horder, happroval⟩ := approveOrder_ok hok
        obtain ⟨⟨a, rfl⟩, rfl⟩ := getOrder_ends ho hread
        refine ⟨fun _ hr => ?_, fun _ _ => ⟨order, horder, happroval.handsOver_iff hcodes⟩⟩
        cases hr
      · cases herror
    · obtain ⟨_, herror, -⟩ | ⟨_, herror, rfl, -⟩ := Call.ends_transaction.mp htx
      · cases herror
      · exact ⟨fun _ _ => rfl, fun _ hr => by cases hr⟩
  · obtain ⟨-, rfl⟩ := Call.ends_check.mp hcheck
    exact ⟨fun _ _ => rfl, fun _ hr => by cases hr⟩

/-- A free bar of ten grams. -/
def vaultBar (id : ℕ) (code : String) : HologramCode where
  id := id
  code := code
  status := .unassigned
  productId := none
  variantId := none
  weightGrams := some 100000
  purityKarat := some .k24
  factorySerialNumber := none
  mintedAt := none
  shopOrderItemId := none
  assignedByAdminId := none
  assignedAt := none
  revokedByAdminId := none
  revokedAt := none
  revokeReason := none
  agentId := none
  agentAllocatedAt := none
  agentPremiumRial := none
  vaultCodedAt := some 0

/-- One bar of ten grams at a premium. -/
def tenGrams (title : String) (premium : ℤ) : AgentPurchaseItem where
  title := title
  weightGrams := 100000
  purityKarat := .k24
  quantity := 1
  unitGoldValueRial := 1000
  unitPremiumRial := premium
  lineTotalRial := 1000 + premium

/-- A paid order of two bars of ten grams. -/
def paidOrder (premium : ℤ) : AgentPurchaseOrder where
  id := 5
  orderNumber := "AG-1404-AGO-000005"
  agentId := 1
  status := .paid
  paymentMethod := .wallet
  items := [tenGrams "A" 100, tenGrams "B" premium]
  goldValueRial := 2000
  premiumRial := 100 + premium
  totalRial := 2100 + premium
  lockedUntil := 0
  paymentReference := none
  proformaInvoiceId := none
  invoiceId := none
  voucherNumber := none
  approvedAt := none
  approvedById := none
  adminNote := none
  saleJournalId := none
  creditDueAt := none

/-- An agent with that order, and two bars in the vault. -/
def twoBars (premium : ℤ) : OfficeDb :=
  { OfficeDb.opening (Chart.opening ["1025", "2080", "4040", "4050", "5050"]) 0 with
    bars := ⟨[vaultBar 2 "10000001", vaultBar 3 "10000002"], 4, by decide, by decide⟩
    agents := ⟨[⟨1, "AGT-0001", "N", .active, false, false, none, none, 0⟩], 2, by decide,
      by decide⟩
    agentPurchases := ⟨[paidOrder premium], 6, by simp, by simp [paidOrder]⟩
    texts := fun _ => some "x" }

/-- The codes of the two bars. -/
def twoCodes : ApprovePurchaseOrderDto := ⟨["10000001", "10000002"], none⟩

/-- The office after the approval. -/
def afterApproval (premium : ℤ) : OfficeDb :=
  ((approve .of1404 5 9 twoCodes).exec (twoBars premium)).2

/-- `approve_iff` for two items at one premium. -/
theorem approve_iff_onePremium :
    ∃ a, (approve .of1404 5 9 twoCodes).Returns (twoBars 100) a (afterApproval 100) ∧
      ∃ order, (twoBars 100).agentPurchases.find? 5 = some order ∧
        (HandsOver order (twoCodes.codes.map trimText) (twoBars 100) (afterApproval 100) ↔
          OnePremium order.items) := by
  obtain ⟨a, ha⟩ := Call.exists_returns (c := approve .of1404 5 9 twoCodes) (s := twoBars 100)
    (by decide +kernel)
  exact ⟨a, ha, (approve_iff (by decide +kernel) ha).2 a rfl⟩

/-- Two items of ten grams at different premiums: the approval succeeds, and both bars go to the
agent at the premium of the first. -/
theorem premium_of_second_item_is_lost :
    (∃ a, (approve .of1404 5 9 twoCodes).Returns (twoBars 200) a (afterApproval 200)) ∧
      (afterApproval 200).bars.rows.map (·.agentPremiumRial) = [some 100, some 100] ∧
      ¬HandsOver (paidOrder 200) (twoCodes.codes.map trimText) (twoBars 200)
        (afterApproval 200) := by
  refine ⟨Call.exists_returns (by decide +kernel), by decide +kernel, fun h => ?_⟩
  have hone : ((allocated (twoBars 200) (afterApproval 200)).filter fun b =>
      (b.weightGrams = some 100000 ∧ b.purityKarat = some .k24) ∧
        b.agentPremiumRial = some 200).length = 0 := by decide +kernel
  rw [h.premiums 100000 .k24 200] at hone
  exact absurd hone (by decide)

end AgentPurchaseService

end ArkanGold
