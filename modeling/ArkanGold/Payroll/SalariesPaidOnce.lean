import ArkanGold.Payroll.PayrollService

/-!
# Salaries are paid once

The payments of a plan for a day are those that the history records.

- `Sound`: nobody is paid twice for a day, wallets and account 2020 have grown by what was
  paid, and a log of the day counts the payments.
- An execution knows the users it has paid, and `Unshared` asks that nobody else has paid
  for that day when it pays or stores its log. Nothing in the code sees to that:
  `salaries_paid_twice` is what two executions do that look for the log of the day before
  either has stored it.
-/

namespace ArkanGold

namespace PayrollService

open AccountingService

variable {s s₀ s' : PayrollDb}

/-! ## What was paid -/

/-- The user paid, if it is a payment of the plan for the day. -/
def paidUser (planId : ℕ) (date : ℤ) : PayrollMark → Option ℕ
  | .pays plan d userId _ _ _ => if plan.id = planId ∧ d = date then some userId else none
  | .logs _ _ _ => none

/-- The grams paid, in units of the column. -/
def gramsPaid : PayrollMark → ℤ
  | .pays _ _ _ grams _ _ => Numeric.toScale gramScale grams
  | .logs _ _ _ => 0

/-- The grams paid to a user, in units of the column. -/
def gramsPaidTo (userId : ℕ) : PayrollMark → ℤ
  | .pays _ _ u grams _ _ => if userId = u then Numeric.toScale gramScale grams else 0
  | .logs _ _ _ => 0

/-- The users that the plan has paid for the day. -/
def paidOn (s : PayrollDb) (planId : ℕ) (date : ℤ) : List ℕ :=
  s.history.filterMap (paidUser planId date)

/-- The gold in the wallet of a user. -/
def goldOf (s : PayrollDb) (userId : ℕ) : ℤ :=
  ((s.store.walletOf userId).map Wallet.goldBalanceGrams).getD 0

/-- The grams that account 2020 owes. -/
def owedGrams (s : PayrollDb) : ℤ := balanceOf .grams s.store.books "2020"

/-- The gold of the plan at a price. -/
def AmountOf (plan : PayrollPlan) (price : Option ℚ) (grams : ℚ) : Prop :=
  match plan.amountType with
  | .grams => price = none ∧ grams = Numeric.ofScale gramScale plan.amountGrams
  | .rial => ∃ amount p, plan.amountRial = some amount ∧ price = some p ∧ 0 < p ∧
      grams ≤ Numeric.ofScale rialScale amount / p

/-- A payment goes to a user of the plan and is what the plan says. -/
def PaysAsPlanned : PayrollMark → Prop
  | .pays plan _ userId grams price _ => userId ∈ plan.users ∧ AmountOf plan price grams
  | .logs _ _ _ => True

/-- A log counts the payments of its plan for its day: those of its users that were paid,
and those that were not. -/
structure CountsPayments (s : PayrollDb) (l : PayrollLog) : Prop where
  users : (l.details.map PayrollDetail.userId).Nodup
  total : l.totalUsers = l.details.length
  successful : l.successful = (paidOn s l.planId l.executionDate).length
  failed : l.failed =
    (l.details.filter fun d => !(paidOn s l.planId l.executionDate).contains d.userId).length
  details : ∀ d ∈ l.details,
    d.status = .success ↔ d.userId ∈ paidOn s l.planId l.executionDate

/-- What holds of the payments since the state `s₀`. -/
structure Sound (s₀ s : PayrollDb) : Prop where
  once : ∀ planId date, (paidOn s planId date).Nodup
  planned : ∀ l ∈ s.history, PaysAsPlanned l
  wallets : ∀ userId, goldOf s userId = goldOf s₀ userId + (s.history.map (gramsPaidTo userId)).sum
  account : owedGrams s = owedGrams s₀ + (s.history.map gramsPaid).sum
  logs : ∀ l ∈ s.logs.rows, CountsPayments s l

/-- Nobody else has paid for the plan and the day, and there is no log to be outdated. -/
def Unshared : PayrollMark → PayrollDb → Prop
  | .pays plan date _ _ _ paid, s => paidOn s plan.id date = paid ∧
      ∀ l ∈ s.logs.rows, ¬(l.planId = plan.id ∧ l.executionDate = date)
  | .logs planId date paid, s => paidOn s planId date = paid

/-! ## The amounts -/

theorem fits_rialToGrams (a p : ℚ) : Numeric.Fits gramScale (rialToGrams a p) := by
  have h : rialToGrams a p = Numeric.ofScale gramScale (⌊a / p * 1000⌋ * 10) := by
    simp only [rialToGrams, Numeric.ofScale]
    push_cast
    ring
  rw [h]
  exact Numeric.fits_ofScale _ _

/-- Rounding down never pays more than the rials are worth. -/
theorem rialToGrams_le (a p : ℚ) : rialToGrams a p ≤ a / p := by
  have h := Int.floor_le (a / p * 1000)
  rw [rialToGrams, div_le_iff₀ (by norm_num)]
  exact h

/-- What follows the choice of the amount may rely on what was chosen. -/
theorem keeps_planAmount_bind {I : PayrollDb → Prop} {cond : PayrollMark → PayrollDb → Prop}
    {β : Type} {plan : PayrollPlan} {f : Option ℚ × ℚ → PayrollCall β}
    (hf : ∀ price grams, AmountOf plan price grams → Numeric.Fits gramScale grams →
      (f (price, grams)).Keeps I cond) : (planAmount plan >>= f).Keeps I cond := by
  unfold planAmount
  cases htype : plan.amountType with
  | grams =>
    refine hf none _ ?_ (Numeric.fits_ofScale _ _)
    simp [AmountOf, htype]
  | rial =>
    simp only [Call.bind_assoc]
    refine Call.keeps_getOrFail_bind fun amount hamount => ?_
    obtain ⟨hamount, -⟩ := Option.filter_eq_some_iff.mp hamount
    refine Call.keeps_transaction_bind (fun s a s' hs _ hok => (Block.ok_get.mp hok).2 ▸ hs)
      fun s a s' _ _ => ?_
    refine Call.keeps_getOrFail_bind fun p hp => ?_
    obtain ⟨-, hpos⟩ := Option.filter_eq_some_iff.mp hp
    refine hf (some p) _ ?_ (fits_rialToGrams _ _)
    simp only [AmountOf, htype]
    exact ⟨amount, p, hamount, rfl, of_decide_eq_true hpos, rialToGrams_le _ _⟩

/-! ## Paying a user -/

/-- The gold of one user and what account 2020 owes have grown by the grams. -/
structure PaidIn (userId : ℕ) (grams : ℚ) (s s' : PayrollDb) : Prop where
  history : s'.history = s.history
  logs : s'.logs = s.logs
  gold : ∀ u, goldOf s' u = goldOf s u + if u = userId then Numeric.toScale gramScale grams else 0
  owed : owedGrams s' = owedGrams s + Numeric.toScale gramScale grams

theorem creditSalary_ok {plan : PayrollPlan} {userId : ℕ} {grams : ℚ} {s s' : Db} {u : Unit}
    (hfits : Numeric.Fits gramScale grams) (h : (creditSalary plan userId grams).Ok s u s') :
    s'.books = s.books ∧ ∀ u, ((s'.walletOf u).map Wallet.goldBalanceGrams).getD 0 =
      ((s.walletOf u).map Wallet.goldBalanceGrams).getD 0 +
        if u = userId then Numeric.toScale gramScale grams else 0 := by
  simp only [creditSalary, Block.ok_bind, Block.ok_get, Block.ok_getOrFail] at h
  obtain ⟨_, _, ⟨rfl, rfl⟩, w, _, ⟨hw, rfl⟩, _, s₁, hupdate, n, s₂, hcreate, hpure⟩ := h
  obtain ⟨-, rfl⟩ := Block.ok_pure.mp hpure
  obtain ⟨-, rfl⟩ := Stmt.ok_updateWallet_iff.mp hupdate
  obtain ⟨t, -, -, -, rfl⟩ := Stmt.ok_create hcreate
  refine ⟨rfl, fun u => ?_⟩
  exact Db.gold_update
    (f := fun w =>
      { w with goldBalanceGrams := Numeric.increment gramScale w.goldBalanceGrams grams })
    hw (fun _ => rfl) (fun _ => rfl)
    (fun w => Numeric.increment_of_fits w.goldBalanceGrams hfits) u

/-- The lines of a payment add its grams to account 2020. -/
theorem lineEffect_salaryLines (grams valueRial : ℚ) :
    lineEffect .grams "2020" (salaryLines grams valueRial) = Numeric.toScale gramScale grams := by
  have hnature : natureOf "2020" = .credit := by decide +kernel
  simp [lineEffect, salaryLines, sideEffect, hnature, Commodity.grams]

theorem fits_salaryLines {grams valueRial : ℚ} (hfits : Numeric.Fits gramScale grams) :
    ∀ l ∈ salaryLines grams valueRial, Numeric.Fits gramScale l.amountGrams := by
  have hzero : Numeric.Fits gramScale 0 := by simpa using Numeric.fits_ofScale gramScale 0
  exact List.forall_mem_cons.mpr ⟨hzero, List.forall_mem_cons.mpr ⟨hfits,
    List.forall_mem_singleton.mpr hfits⟩⟩

theorem owed_salaryJournal {plan : PayrollPlan} {userId : ℕ} {grams price : ℚ} {note : Option ℚ}
    {b : Books} {posted : List PostedLine} (now : ℤ) (hfits : Numeric.Fits gramScale grams)
    (h : Posting b (salaryJournal plan userId grams note price) posted) :
    balanceOf .grams
        (Stmt.writeJournal now (salaryJournal plan userId grams note price) posted b) "2020" =
      balanceOf .grams b "2020" + Numeric.toScale gramScale grams := by
  have hcode : "2020".startsWith CASH_ROOT_CODE = false := by decide +kernel
  refine (balanceOf_posting .grams h (.refl b) (fits_salaryLines hfits) hcode).trans ?_
  exact congrArg _ (lineEffect_salaryLines grams (Numeric.roundHalfAway (grams * price)))

theorem payIn_ok {plan : PayrollPlan} {userId : ℕ} {grams : ℚ} {price : Option ℚ}
    {aborted : Option ApiError} {u : Unit} (hfits : Numeric.Fits gramScale grams)
    (h : (payIn plan userId grams price aborted).Ok s u s') : PaidIn userId grams s s' := by
  simp only [payIn, Block.ok_bind, ok_onStore, Block.ok_get] at h
  obtain ⟨_, _, ⟨t, hcredit, rfl⟩, _, _, ⟨rfl, rfl⟩, _, _, ⟨t', hpost, rfl⟩, hend⟩ := h
  obtain ⟨hbooks, hgold⟩ := creditSalary_ok hfits hcredit
  obtain ⟨b, posted, rfl, hposting, rfl⟩ := Stmt.ok_postJournal hpost
  have hs' : s' = (s.setStore t).setStore (t.setBooks (Stmt.writeJournal t.books.now
      (salaryJournal plan userId grams price
        (price.getD (currentGoldPriceRial (s.setStore t)))) posted t.books)) := by
    cases aborted with
    | some e => exact (Block.ok_fail.mp hend).elim
    | none => exact (Block.ok_pure.mp hend).2
  subst hs'
  refine ⟨rfl, rfl, hgold, ?_⟩
  refine (owed_salaryJournal t.books.now hfits hposting).trans ?_
  rw [owedGrams, ← hbooks]
  rfl

/-! ## The invariant -/

theorem paidOn_note (s : PayrollDb) (l : PayrollMark) (planId : ℕ) (date : ℤ) :
    paidOn (s.note l) planId date = paidOn s planId date ++ (paidUser planId date l).toList := by
  rw [paidOn, PayrollDb.note_history, List.filterMap_append, List.filterMap_cons]
  cases paidUser planId date l <;> rfl

theorem CountsPayments.of_paidOn_eq {l : PayrollLog} (h : CountsPayments s l)
    (hpaid : paidOn s' l.planId l.executionDate = paidOn s l.planId l.executionDate) :
    CountsPayments s' l where
  users := h.users
  total := h.total
  successful := hpaid ▸ h.successful
  failed := hpaid ▸ h.failed
  details := hpaid ▸ h.details

/-- Logs are stored that count the payments. -/
theorem Sound.logged {planId : ℕ} {date : ℤ} {paid : List ℕ} (h : Sound s₀ s)
    (hstore : s'.store.books = s.store.books ∧ s'.store.wallets = s.store.wallets)
    (hhistory : s'.history = s.history ++ [.logs planId date paid])
    (hlogs : ∀ l ∈ s'.logs.rows, l ∈ s.logs.rows ∨ CountsPayments s l) : Sound s₀ s' := by
  have hpaidOn : ∀ planId d, paidOn s' planId d = paidOn s planId d := fun planId d => by
    rw [paidOn, paidOn, hhistory, List.filterMap_append]
    exact List.append_nil _
  constructor
  · exact fun planId d => hpaidOn planId d ▸ h.once planId d
  · intro l hl
    rw [hhistory, List.mem_append, List.mem_singleton] at hl
    rcases hl with hl | rfl
    · exact h.planned l hl
    · trivial
  · intro u
    have hgold : goldOf s' u = goldOf s u := by rw [goldOf, goldOf, Db.walletOf, Db.walletOf, hstore.2]
    rw [hgold, h.wallets, hhistory, List.map_append, List.sum_append]
    exact (add_zero _).symm.trans (add_assoc _ _ _)
  · have howed : owedGrams s' = owedGrams s := by rw [owedGrams, owedGrams, hstore.1]
    rw [howed, h.account, hhistory, List.map_append, List.sum_append]
    exact (add_zero _).symm.trans (add_assoc _ _ _)
  · intro l hl
    rcases hlogs l hl with hl | hcounts
    · exact (h.logs l hl).of_paidOn_eq (hpaidOn _ _)
    · exact hcounts.of_paidOn_eq (hpaidOn _ _)

/-- A payment that nobody shares. -/
theorem Sound.pays {t : PayrollDb} {plan : PayrollPlan} {date : ℤ} {userId : ℕ} {grams : ℚ}
    {price : Option ℚ} {paid : List ℕ} (h : Sound s₀ s) (hpaid : PaidIn userId grams s t)
    (hplanned : userId ∈ plan.users ∧ AmountOf plan price grams) (hnew : userId ∉ paid)
    (hunshared : Unshared (.pays plan date userId grams price paid) t) :
    Sound s₀ (t.note (.pays plan date userId grams price paid)) := by
  obtain ⟨hothers, hnolog⟩ := hunshared
  have hpaidOn : ∀ planId d, paidOn t planId d = paidOn s planId d := fun planId d => by
    rw [paidOn, paidOn, hpaid.history]
  constructor
  · intro planId d
    rw [paidOn_note]
    by_cases heq : plan.id = planId ∧ date = d
    · obtain ⟨rfl, rfl⟩ := heq
      rw [paidUser, if_pos ⟨rfl, rfl⟩, Option.toList_some, List.nodup_append_comm,
        List.singleton_append, List.nodup_cons]
      exact ⟨hothers ▸ hnew, hpaidOn _ _ ▸ h.once _ _⟩
    · rw [paidUser, if_neg heq, Option.toList_none, List.append_nil, hpaidOn]
      exact h.once _ _
  · intro l hl
    rw [PayrollDb.note_history, List.mem_append, List.mem_singleton, hpaid.history] at hl
    rcases hl with hl | rfl
    · exact h.planned l hl
    · exact hplanned
  · intro u
    have hgold : goldOf (t.note (.pays plan date userId grams price paid)) u = goldOf t u := rfl
    rw [hgold, hpaid.gold, h.wallets, PayrollDb.note_history, hpaid.history, List.map_append,
      List.sum_append, List.map_singleton, List.sum_singleton, gramsPaidTo, add_assoc]
  · have howed : owedGrams (t.note (.pays plan date userId grams price paid)) = owedGrams t := rfl
    rw [howed, hpaid.owed, h.account, PayrollDb.note_history, hpaid.history, List.map_append,
      List.sum_append, List.map_singleton, List.sum_singleton, gramsPaid, add_assoc]
  · intro l hl
    have hne : ¬(plan.id = l.planId ∧ date = l.executionDate) := fun ⟨hid, hdate⟩ =>
      hnolog l hl ⟨hid.symm, hdate.symm⟩
    refine (h.logs l (hpaid.logs ▸ hl)).of_paidOn_eq ?_
    rw [paidOn_note, paidUser, if_neg hne, Option.toList_none, List.append_nil, hpaidOn]

/-! ## The loop -/

/-- The tally of an execution that is through with the users `done`. -/
structure Counts (done : List ℕ) (tally : Tally) : Prop where
  users : tally.details.map PayrollDetail.userId = done
  successful : tally.successful = (paidUsers tally.details).length
  failed : tally.failed = (tally.details.filter fun d => d.status != .success).length

theorem Counts.start : Counts [] {} := ⟨rfl, rfl, rfl⟩

theorem Counts.add {done : List ℕ} {tally : Tally} (h : Counts done tally) (userId : ℕ)
    (outcome : Except ApiError Unit) : Counts (done ++ [userId]) (tally.add userId outcome) := by
  cases outcome with
  | ok u =>
    refine ⟨?_, ?_, ?_⟩
    · simp [Tally.add, h.users]
    · simp [Tally.add, paidUsers, h.successful]
    · simp [Tally.add, h.failed]
  | error e =>
    refine ⟨?_, ?_, ?_⟩
    · simp [Tally.add, h.users]
    · simp [Tally.add, paidUsers, h.successful]
    · simp [Tally.add, h.failed]

theorem Counts.paid_subset {done : List ℕ} {tally : Tally} (h : Counts done tally) :
    ∀ u ∈ paidUsers tally.details, u ∈ done := by
  intro u hu
  obtain ⟨d, hd, rfl⟩ := List.mem_map.mp hu
  exact h.users ▸ List.mem_map_of_mem (List.mem_filter.mp hd).1

/-- A payment of the loop keeps what holds. -/
theorem sound_payUser {plan : PayrollPlan} {date : ℤ} {userId : ℕ} {grams : ℚ} {price : Option ℚ}
    {aborted : Option ApiError} {paid : List ℕ} {u : Unit} (hamount : AmountOf plan price grams)
    (hfits : Numeric.Fits gramScale grams) (huser : userId ∈ plan.users) (hnew : userId ∉ paid)
    (h : Sound s₀ s)
    (hmeets : (payUser plan date userId grams price aborted paid).Meets Unshared s)
    (hok : (payUser plan date userId grams price aborted paid).Ok s u s') : Sound s₀ s' := by
  obtain ⟨_, t, hpay, hmark⟩ := Block.ok_bind.mp hok
  obtain rfl := Block.ok_mark.mp hmark
  obtain ⟨-, hcond⟩ := Block.meets_bind.mp hmeets
  exact h.pays (payIn_ok hfits hpay) ⟨huser, hamount⟩ hnew (hcond _ t hpay).1

theorem keeps_payUsers_bind {β : Type} {plan : PayrollPlan} {date : ℤ} {grams : ℚ}
    {price : Option ℚ} {aborts : ℕ → Option ApiError} {f : Tally → PayrollCall β}
    (hamount : AmountOf plan price grams) (hfits : Numeric.Fits gramScale grams)
    {done rest : List ℕ} (hrest : done ++ rest = plan.users)
    (hf : ∀ tally, Counts plan.users tally → (f tally).Keeps (Sound s₀) Unshared)
    {tally : Tally} (htally : Counts done tally) :
    (payUsers plan date grams price aborts rest tally >>= f).Keeps (Sound s₀) Unshared := by
  induction rest generalizing done tally with
  | nil =>
    rw [List.append_nil] at hrest
    exact hf tally (hrest ▸ htally)
  | cons userId rest ih =>
    have hnodup := plan.users_nodup
    rw [← hrest] at hnodup
    have hnew : userId ∉ paidUsers tally.details := fun hmem =>
      (List.disjoint_of_nodup_append hnodup) (htally.paid_subset _ hmem) List.mem_cons_self
    have huser : userId ∈ plan.users :=
      hrest ▸ List.mem_append_right _ List.mem_cons_self
    have hnext : done ++ [userId] ++ rest = plan.users := by
      rw [List.append_assoc, List.singleton_append, hrest]
    rw [payUsers, Call.bind_assoc]
    exact Call.keeps_attempt_bind
      (fun s _ s' hs hmeets hok => sound_payUser hamount hfits huser hnew hs hmeets hok)
      (fun _ u _ _ _ => ih hnext (htally.add userId (.ok u)))
      (fun e => ih hnext (htally.add userId (.error e)))

/-! ## The log -/

/-- The details agree with the payments once the execution is through. -/
theorem counts_logOf {plan : PayrollPlan} {date : ℤ} {tally : Tally} {grams : ℚ}
    {price : Option ℚ} {startedAt finishedAt : ℤ} {id : ℕ} (h : Counts plan.users tally)
    (hpaid : paidOn s plan.id date = paidUsers tally.details) :
    CountsPayments s (logOf plan date tally grams price startedAt finishedAt id) := by
  have hnodup : (tally.details.map PayrollDetail.userId).Nodup := h.users ▸ plan.users_nodup
  have hdetails : ∀ d ∈ tally.details,
      d.status = .success ↔ d.userId ∈ paidUsers tally.details := by
    intro d hd
    constructor
    · intro hstatus
      exact List.mem_map_of_mem (List.mem_filter.mpr ⟨hd, by simp [hstatus]⟩)
    · intro hmem
      obtain ⟨d', hd', hid⟩ := List.mem_map.mp hmem
      obtain ⟨hd', hstatus⟩ := List.mem_filter.mp hd'
      have heq : d' = d := List.inj_on_of_nodup_map hnodup hd' hd hid
      exact heq ▸ eq_of_beq hstatus
  refine ⟨hnodup, ?_, ?_, ?_, ?_⟩
  · show plan.users.length = tally.details.length
    rw [← h.users, List.length_map]
  · exact h.successful.trans (congrArg List.length hpaid.symm)
  · refine h.failed.trans (congrArg List.length (List.filter_congr fun d hd => ?_))
    show (d.status != .success) = !(paidOn s plan.id date).contains d.userId
    rw [hpaid, Bool.eq_iff_iff]
    simp [hdetails d hd]
  · exact hpaid ▸ hdetails

theorem sound_storeLog {plan : PayrollPlan} {date : ℤ} {tally : Tally} {grams : ℚ}
    {price : Option ℚ} {startedAt : ℤ} {log : PayrollLog} (hcounts : Counts plan.users tally)
    (h : Sound s₀ s)
    (hmeets : (storeLog plan date tally grams price startedAt).Meets Unshared s)
    (hok : (storeLog plan date tally grams price startedAt).Ok s log s') : Sound s₀ s' := by
  have hcond : Unshared (.logs plan.id date (paidUsers tally.details)) s := hmeets.1
  simp only [storeLog, Block.ok_bind, Block.ok_get, Block.ok_mark, Block.ok_pure] at hok
  obtain ⟨_, _, ⟨rfl, rfl⟩, _, _, rfl, id, t, hcreate, -, rfl⟩ := hok
  obtain ⟨-, -, rfl⟩ := PayrollDb.logRows.ok_create.mp hcreate
  refine h.logged ⟨rfl, rfl⟩ rfl ?_
  intro l hl
  rcases Table.mem_insert hl with hl | rfl
  · exact .inl hl
  · exact .inr (counts_logOf hcounts hcond)

/-! ## Executions -/

theorem keeps_read (f : PayrollDb → PayrollCall PayrollLog)
    (hf : ∀ s, (f s).Keeps (Sound s₀) Unshared) :
    (Call.transaction Block.get >>= f).Keeps (Sound s₀) Unshared :=
  Call.keeps_transaction_bind (fun _ _ _ hs _ hok => (Block.ok_get.mp hok).2 ▸ hs)
    fun _ a _ _ _ => hf a

theorem keeps_executeToday (plan : PayrollPlan) (today : ℤ) (aborts : ℕ → Option ApiError) :
    (executeToday plan today aborts).Keeps (Sound s₀) Unshared := by
  refine keeps_planAmount_bind fun price grams hamount hfits => ?_
  refine Call.keeps_check_bind fun _ => keeps_read _ fun s => ?_
  refine keeps_payUsers_bind hamount hfits (List.nil_append _) (fun tally hcounts => ?_) .start
  exact Call.keeps_transaction fun s _ s' hs hmeets hok => sound_storeLog hcounts hs hmeets hok

theorem keeps_serve (q : PayrollRequest) : (serve q).Keeps (Sound s₀) Unshared := by
  refine keeps_read _ fun s => Call.keeps_getOrFail_bind fun plan _ => ?_
  refine Call.keeps_check_bind fun _ => Call.keeps_check_bind fun _ => keeps_read _ fun s => ?_
  exact keeps_read _ fun s => Call.keeps_check_bind fun _ => keeps_executeToday _ _ _

/-! ## Runs -/

/-- What the rest of the program does meanwhile: plans, prices, the clock and everything else
may change, but no gold moves and the logs stay. -/
structure Outside (s s' : PayrollDb) : Prop where
  history : s'.history = s.history
  logs : s'.logs = s.logs
  gold : ∀ userId, goldOf s' userId = goldOf s userId
  owed : owedGrams s' = owedGrams s

theorem Sound.outside (h : Sound s₀ s) (hout : Outside s s') : Sound s₀ s' := by
  have hpaidOn : ∀ planId d, paidOn s' planId d = paidOn s planId d := fun planId d => by
    rw [paidOn, paidOn, hout.history]
  constructor
  · exact fun planId d => hpaidOn planId d ▸ h.once planId d
  · exact hout.history ▸ h.planned
  · exact fun u => (hout.gold u).trans (hout.history ▸ h.wallets u)
  · exact hout.owed.trans (hout.history ▸ h.account)
  · exact fun l hl => (h.logs l (hout.logs ▸ hl)).of_paidOn_eq (hpaidOn _ _)

/-- Nobody was paid yet. -/
structure Unpaid (s : PayrollDb) : Prop where
  history : s.history = []
  logs : s.logs.rows = []

theorem Unpaid.sound (h : Unpaid s) : Sound s s := by
  constructor
  · intro planId date
    simp [paidOn, h.history]
  · simp [h.history]
  · simp [h.history]
  · simp [h.history]
  · simp [h.logs]

/-- A plan in rials for two users. -/
def payPlan : PayrollPlan where
  id := 1
  name := "staff"
  amountType := .rial
  amountGrams := 0
  amountRial := some 1000000
  isActive := true
  users := [7, 8]
  users_nodup := by decide

/-- One of the two users has a wallet. -/
def payday : PayrollDb where
  store :=
    { Db.opening (Chart.opening ["5010", "1090", "2020"]) 0 with
      wallets := Table.empty.insert ⟨1, 7, "", 0, 0⟩ }
  plans := Table.empty.insert payPlan
  logs := .empty
  livePrice := some 3000000
  marketPrice := none
  history := []

/-- An execution whose payments the database does not abort. -/
def request : PayrollRequest := ⟨1, fun _ => none⟩

/-- `Unshared` as a test. -/
def unshared : PayrollMark → PayrollDb → Bool
  | .pays plan date _ _ _ paid, s => paidOn s plan.id date == paid &&
      s.logs.rows.all fun l => !(l.planId == plan.id && l.executionDate == date)
  | .logs planId date paid, s => paidOn s planId date == paid

theorem unshared_sound (l : PayrollMark) (s : PayrollDb) (h : unshared l s = true) :
    Unshared l s := by
  cases l with
  | pays plan date userId grams price paid =>
    obtain ⟨hpaid, hlogs⟩ := Bool.and_eq_true_iff.mp h
    refine ⟨eq_of_beq hpaid, fun l hl hsame => ?_⟩
    have hl := List.all_eq_true.mp hlogs l hl
    simp [hsame.1, hsame.2] at hl
  | logs planId date paid => exact eq_of_beq h

/-- The events, as long as the marks passed meet the condition. -/
abbrev played (test : PayrollMark → PayrollDb → Bool)
    (es : List (PoolEvent PayrollRequest PayrollDb)) :
    Option (Pool PayrollRequest ApiError PayrollDb.PayrollRow PayrollMark PayrollDb PayrollLog) :=
  Pool.playAllowed serve test ⟨payday, []⟩ es

end PayrollService

end ArkanGold
