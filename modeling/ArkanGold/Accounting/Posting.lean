import ArkanGold.Accounting.Books

/-!
# Posting journals

`AccountingService`: the one place where journals are written.

- `postJournal` checks everything before its first write (`checkJournal`): the balance
  of the lines, the date, that every account exists and is active. `postJournal_ok`
  says what a call that returns has checked and written; no later proof looks into the
  body.
- `reverseJournal` posts the lines of an earlier journal with the sides exchanged.
- The lines are checked as decimals, the entries and balances are columns: what
  an amount with too many places does to them is what `updateBalances` and
  `ledgerEntry` compute.
-/

namespace ArkanGold

/-- `LedgerLineInput`; a missing amount is zero (`toDecimal`). -/
structure LedgerLineInput where
  accountCode : String
  side : LedgerSide
  amountRial : ℚ := 0
  amountGrams : ℚ := 0
  description : Option String := none
  deriving DecidableEq

/-- `JournalInput` -/
structure JournalInput where
  description : String
  totalRial : ℚ
  totalGrams : ℚ
  lines : List LedgerLineInput
  source : JournalSource := .system
  referenceType : Option String := none
  referenceId : Option ℕ := none
  entryDate : Option ℤ := none
  createdByAdminId : Option ℕ := none
  reversalOfId : Option ℕ := none
  transactionId : Option ℕ := none

/-- A line together with the account of its code. -/
structure PostedLine where
  account : Account
  line : LedgerLineInput

namespace AccountingService

/-- `CASH_ROOT_CODE` -/
def CASH_ROOT_CODE : String := "1010"

/-- `DEFAULT_BANK_ACCOUNT_KEY` -/
def DEFAULT_BANK_ACCOUNT_KEY : String := "accounting.default_bank_account"

/-- `KEEP_EXACT_ACCOUNT_SOURCES` -/
def keepsExactAccount : JournalSource → Bool
  | .manual | .opening | .closing | .reversal => true
  | _ => false

/-! ## The operating bank account -/

/-- White space and line terminators of `String.prototype.trim`. -/
def isTrimmed (c : Char) : Bool :=
  c.isWhitespace || c.val == 0xA0 || c.val == 0xFEFF || c.val == 0x2028 || c.val == 0x2029

/-- `String.prototype.trim` -/
def trim (v : String) : String :=
  String.ofList ((v.toList.dropWhile isTrimmed).reverse.dropWhile isTrimmed).reverse

/-- `/^1010\d*$/` -/
def isBankCode (v : String) : Bool :=
  v.startsWith CASH_ROOT_CODE && (v.toList.drop 4).all Char.isDigit

/-- The accounts of cash and banks. -/
def cashAccounts (s : Books) : List Account :=
  s.accounts.rows.filter fun a => a.code.startsWith CASH_ROOT_CODE

/-- `isLeaf`: an active account without active sub-accounts. -/
def isLeaf (accounts : List Account) (code : String) : Bool :=
  match accounts.find? fun a => a.code == code with
  | none => false
  | some a => a.isActive && !accounts.any fun c => c.isActive && c.parentId == some a.id

/-- A configured bank account, where the setting names a usable one. -/
def configuredBank (accounts : List Account) (value : Option String) : Option String :=
  (value.map trim).filter fun v => isBankCode v && isLeaf accounts v

/-- `resolveBankAccount` without an explicit code. An unusable setting is passed over;
the sorted list of leaves matters only where it has one element. -/
def operatingBankAccount (s : Books) (configKey : Option String) : String :=
  let accounts := cashAccounts s
  if isLeaf accounts CASH_ROOT_CODE then CASH_ROOT_CODE
  else
    let keys := configKey.toList.filter (· != "") ++ [DEFAULT_BANK_ACCOUNT_KEY]
    match keys.findSome? fun key => configuredBank accounts (s.systemConfig key) with
    | some v => v
    | none =>
      match accounts.filter fun a => isLeaf accounts a.code with
      | [leaf] => leaf.code
      | _ => CASH_ROOT_CODE

/-- `resolveBankAccount` -/
def resolveBankAccount (s : Books) (explicit : Option String := none)
    (configKey : Option String := none) : Except ApiError String :=
  let accounts := cashAccounts s
  match (explicit.map trim).filter (· != "") with
  | none => .ok (operatingBankAccount s configKey)
  | some code =>
    if !isBankCode code then
      .error (.badRequest "حساب بانکی باید حساب نقد و بانک (1010 یا معین‌های آن) باشد")
    else
      match accounts.find? fun a => a.code == code with
      | none => .error (.badRequest s!"حساب {code} یافت نشد یا غیرفعال است")
      | some a =>
        if !a.isActive then .error (.badRequest s!"حساب {code} یافت نشد یا غیرفعال است")
        else if !isLeaf accounts code then
          .error (.badRequest
            s!"حساب {code} زیرحساب دارد؛ یکی از حساب‌های بانکی معین آن را انتخاب کنید")
        else .ok code

theorem startsWith_of_isLeaf {s : Books} {code : String}
    (h : isLeaf (cashAccounts s) code = true) : code.startsWith CASH_ROOT_CODE = true := by
  unfold isLeaf at h
  cases hf : (cashAccounts s).find? fun a => a.code == code with
  | none =>
    rw [hf] at h
    cases h
  | some a =>
    have hmem := List.mem_of_find?_eq_some hf
    have hcode : a.code = code := by simpa using List.find?_some hf
    rw [← hcode]
    exact (List.mem_filter.mp hmem).2

/-- Whatever the settings say, the operating bank account is one of cash and banks. -/
theorem operatingBankAccount_startsWith (s : Books) (configKey : Option String) :
    (operatingBankAccount s configKey).startsWith CASH_ROOT_CODE = true := by
  have hroot : CASH_ROOT_CODE.startsWith CASH_ROOT_CODE = true := by decide +kernel
  unfold operatingBankAccount
  dsimp only
  split
  · exact hroot
  · split
    · rename_i v hv
      obtain ⟨key, -, hkey⟩ := List.exists_of_findSome?_eq_some hv
      obtain ⟨-, hleaf⟩ := Option.filter_eq_some_iff.mp hkey
      simp only [Bool.and_eq_true] at hleaf
      exact startsWith_of_isLeaf hleaf.2
    · split
      · rename_i leaf hleaf
        have hmem : leaf ∈ (cashAccounts s).filter fun a => isLeaf (cashAccounts s) a.code := by
          rw [hleaf]
          exact List.mem_singleton_self leaf
        exact startsWith_of_isLeaf (List.mem_filter.mp hmem).2
      · exact hroot

/-! ## Checks before the first write -/

/-- `assertBalanced`: debits equal credits, in rial and in grams. -/
def assertBalanced (lines : List LedgerLineInput) : Bool :=
  DoubleEntry.total LedgerLineInput.side LedgerLineInput.amountRial .debit lines ==
      DoubleEntry.total LedgerLineInput.side LedgerLineInput.amountRial .credit lines &&
    DoubleEntry.total LedgerLineInput.side LedgerLineInput.amountGrams .debit lines ==
      DoubleEntry.total LedgerLineInput.side LedgerLineInput.amountGrams .credit lines

/-- `assertPostingDateAllowed` -/
def assertPostingDateAllowed (s : Books) (entryDate : ℤ) : Except ApiError Unit :=
  let unlocked : Except ApiError Unit :=
    match s.lockedUntil with
    | none => .ok ()
    | some d =>
      if entryDate ≤ utcEndOfDay d then
        .error (.badRequest
          s!"دوره‌ی مالی تا تاریخ {formatIsoDay d} قفل است؛ ثبت سند با این تاریخ مجاز نیست")
      else .ok ()
  match unlocked with
  | .error e => .error e
  | .ok () =>
    if s.fiscalYears.rows.length = 0 then .ok ()
    else
      match s.fiscalYears.rows.find? fun y => y.startDate ≤ entryDate ∧ entryDate ≤ y.endDate with
      | none => .error (.badRequest "تاریخ سند در هیچ سال مالی تعریف‌شده‌ای قرار ندارد")
      | some y =>
        if y.status = .closed then
          .error (.badRequest s!"سال مالی «{y.title}» بسته شده و ثبت سند در آن مجاز نیست")
        else .ok ()

/-- Only a dated journal is checked, and neither a reversal nor a closing entry is. -/
def checksDate (params : JournalInput) : Option ℤ :=
  if params.reversalOfId.isNone && params.source != .closing then params.entryDate else none

/-- The lines with `1010` replaced by the operating bank account, for journals of
the system itself. -/
def redirectCash (s : Books) (params : JournalInput) :
    Except ApiError (List LedgerLineInput) :=
  if params.reversalOfId.isNone && !keepsExactAccount params.source &&
      params.lines.any fun l => l.accountCode == CASH_ROOT_CODE then
    match resolveBankAccount s with
    | .error e => .error e
    | .ok bank =>
      .ok (params.lines.map fun l =>
        if l.accountCode == CASH_ROOT_CODE then { l with accountCode := bank } else l)
  else .ok params.lines

/-- `getRequiredAccounts` -/
def getRequiredAccounts (c : Chart) : List String → Except ApiError (List Account)
  | [] => .ok []
  | code :: codes =>
    match c.findByCode code with
    | none => .error (.internal
        s!"حساب پایه '{code}' در دیتابیس یافت نشد. اپلیکیشن را ری‌استارت کنید تا seed اجرا شود")
    | some a => (getRequiredAccounts c codes).map (a :: ·)

/-- Every account of the journal is active. -/
def assertActive : List Account → Except ApiError Unit
  | [] => .ok ()
  | a :: as =>
    if a.isActive then assertActive as
    else .error (.badRequest s!"حساب {a.code} ({a.name}) غیرفعال است و ثبت سند روی آن مجاز نیست")

/-- The account of every line, read from the accounts found. -/
def attachAccounts (accounts : List Account) (lines : List LedgerLineInput) : List PostedLine :=
  lines.filterMap fun l =>
    (accounts.find? fun a => a.code == l.accountCode).map fun a => ⟨a, l⟩

/-! ## Writes -/

/-- The ledger entry of a line: the amounts as the columns store them. -/
def ledgerEntry (x : PostedLine) : LedgerEntry where
  accountId := x.account.id
  side := x.line.side
  amountRial := Numeric.toScale rialScale x.line.amountRial
  amountGrams := Numeric.toScale gramScale x.line.amountGrams
  description := x.line.description

/-- `deltaRial` -/
def deltaRial (x : PostedLine) : ℚ := x.line.amountRial * deltaSign x.account.code x.line.side

/-- `deltaGrams` -/
def deltaGrams (x : PostedLine) : ℚ := x.line.amountGrams * deltaSign x.account.code x.line.side

/-- An account after the increment of one line. -/
def credited (x : PostedLine) (a : Account) : Account :=
  { a with
    balanceRial := Numeric.increment rialScale a.balanceRial (deltaRial x)
    balanceGrams := Numeric.increment gramScale a.balanceGrams (deltaGrams x) }

/-- Line by line, the balances move; a line without effect is skipped. -/
def updateBalances (posted : List PostedLine) (c : Chart) : Chart :=
  posted.foldl
    (fun c x =>
      if deltaRial x = 0 ∧ deltaGrams x = 0 then c else c.update x.account.id (credited x)) c

/-- The journal and its entries. -/
def createJournal (params : JournalInput) (posted : List PostedLine) (s : Books) : Books :=
  { s with
    journals := s.journals.create fun id =>
      { id := id
        description := params.description
        totalRial := Numeric.toScale rialScale params.totalRial
        totalGrams := Numeric.toScale gramScale params.totalGrams
        source := params.source
        referenceType := params.referenceType
        referenceId := params.referenceId
        createdByAdminId := params.createdByAdminId
        reversalOfId := params.reversalOfId
        transactionId := params.transactionId
        entryDate := params.entryDate.getD s.now
        referenceNumber := s.nextReference
        permanentNumber := none
        fiscalYearId := none
        finalizedAt := none
        ledgerEntries := posted.map ledgerEntry }
    nextReference := s.nextReference + 1 }

/-- All that a posting writes. -/
def write (params : JournalInput) (posted : List PostedLine) (s : Books) : Books :=
  let s' := createJournal params posted s
  { s' with accounts := updateBalances posted s'.accounts }

/-- The unique constraint on `reversal_of_id` admits the journal. -/
def reversalFree (s : Books) (params : JournalInput) : Bool :=
  params.reversalOfId.isNone ||
    !s.journals.rows.any fun j => j.reversalOfId == params.reversalOfId

/-- What `postJournal` checks before it writes: the lines, each with its account. -/
def checkJournal (params : JournalInput) : Tx ApiError Books (List PostedLine) := do
  Tx.check (assertBalanced params.lines)
    (.internal "خطای داخلی در ثبت سند حسابداری. تراکنش لغو شد")
  let s ← Tx.get
  let lines ← Tx.ofExcept (redirectCash s params)
  Tx.ofExcept (match checksDate params with
    | some d => assertPostingDateAllowed s d
    | none => .ok ())
  let accounts ← Tx.ofExcept
    (getRequiredAccounts s.accounts (lines.map LedgerLineInput.accountCode).eraseDups)
  Tx.ofExcept (assertActive accounts)
  Tx.check (reversalFree s params) (.internal "Unique constraint failed (reversal_of_id)")
  pure (attachAccounts accounts lines)

/-- `postJournal`: the id of the new journal. -/
def postJournal (params : JournalInput) : Tx ApiError Books ℕ := do
  let s ← Tx.get
  let posted ← checkJournal params
  Tx.modify (write params posted)
  pure s.journals.next

/-- The options of `reverseJournal`. -/
structure ReversalOptions where
  description : Option String := none
  createdByAdminId : Option ℕ := none
  referenceType : Option String := none
  referenceId : Option ℕ := none

/-- The lines of a journal with the sides exchanged; the code is read through the
foreign key of the entry. -/
def reversedLines (s : Books) (original : JournalEntry) : List LedgerLineInput :=
  original.ledgerEntries.map fun l =>
    { accountCode := (s.codeOf l.accountId).getD ""
      side := l.side.opposite
      amountRial := Numeric.ofScale rialScale l.amountRial
      amountGrams := Numeric.ofScale gramScale l.amountGrams
      description := l.description }

/-- The journal that reverses `original`. -/
def reversalOf (s : Books) (original : JournalEntry) (opts : ReversalOptions) : JournalInput where
  description := opts.description.getD
    s!"برگشت سند عطف {original.referenceNumber}: {original.description}"
  totalRial := Numeric.ofScale rialScale original.totalRial
  totalGrams := Numeric.ofScale gramScale original.totalGrams
  source := .reversal
  reversalOfId := some original.id
  referenceType := opts.referenceType.or original.referenceType
  referenceId := opts.referenceId.or original.referenceId
  createdByAdminId := opts.createdByAdminId
  lines := reversedLines s original

/-- `reverseJournal`: the id of the reversing journal. -/
def reverseJournal (journalId : ℕ) (opts : ReversalOptions := {}) : Tx ApiError Books ℕ := do
  let s ← Tx.get
  let original ← Tx.getOrFail (s.journals.find? journalId) (.notFound "سند حسابداری یافت نشد")
  Tx.check (!s.journals.rows.any fun j => j.reversalOfId == some original.id)
    (.conflict "این سند قبلاً برگشت خورده است")
  Tx.check original.reversalOfId.isNone
    (.conflict "سند برگشتی را نمی‌توان دوباره برگشت زد")
  postJournal (reversalOf s original opts)

/-! ## What a posting that returns has checked and written -/

/-- The lines under the accounts they are posted to. -/
def redirectedLines (s : Books) (params : JournalInput) : List LedgerLineInput :=
  if params.reversalOfId.isNone && !keepsExactAccount params.source &&
      params.lines.any fun l => l.accountCode == CASH_ROOT_CODE then
    params.lines.map fun l =>
      if l.accountCode == CASH_ROOT_CODE then
        { l with accountCode := operatingBankAccount s none } else l
  else params.lines

/-- Redirecting never fails. -/
theorem redirectCash_eq (s : Books) (params : JournalInput) :
    redirectCash s params = .ok (redirectedLines s params) := by
  unfold redirectCash redirectedLines
  split <;> rfl

/-- A redirected line differs from the line passed in its account only, and only when
that was `1010`. -/
theorem redirectedLines_eq_map (s : Books) (params : JournalInput) :
    ∃ code : String → String,
      (∀ c, code c = c ∨ c = CASH_ROOT_CODE ∧ (code c).startsWith CASH_ROOT_CODE = true) ∧
      redirectedLines s params =
        params.lines.map fun l => { l with accountCode := code l.accountCode } := by
  unfold redirectedLines
  split
  · refine ⟨fun c => if c = CASH_ROOT_CODE then operatingBankAccount s none else c, ?_, ?_⟩
    · intro c
      by_cases hc : c = CASH_ROOT_CODE
      · exact .inr ⟨hc, by simpa [hc] using operatingBankAccount_startsWith s none⟩
      · exact .inl (if_neg hc)
    · refine List.map_congr_left fun l _ => ?_
      by_cases hl : l.accountCode = CASH_ROOT_CODE <;> simp [hl]
  · exact ⟨id, fun _ => .inl rfl, by simp⟩

/-- What is true of a posting that returned: `posted` are the lines, each with the
account the tables hold for its code. -/
structure Posting (s : Books) (params : JournalInput) (posted : List PostedLine) : Prop where
  balanced : assertBalanced params.lines = true
  lines : posted.map PostedLine.line = redirectedLines s params
  found : ∀ x ∈ posted, s.accounts.findByCode x.line.accountCode = some x.account
  active : ∀ x ∈ posted, x.account.isActive = true
  dated : ∀ d, checksDate params = some d → assertPostingDateAllowed s d = .ok ()
  fresh : reversalFree s params = true

theorem getRequiredAccounts_ok {c : Chart} {codes : List String} {accounts : List Account}
    (h : getRequiredAccounts c codes = .ok accounts) :
    (∀ code ∈ codes, ∃ a ∈ accounts, a.code = code) ∧
      ∀ a ∈ accounts, c.findByCode a.code = some a := by
  induction codes generalizing accounts with
  | nil =>
    cases h
    simp
  | cons code codes ih =>
    rw [getRequiredAccounts] at h
    cases hf : c.findByCode code with
    | none =>
      rw [hf] at h
      cases h
    | some a =>
      rw [hf] at h
      cases hr : getRequiredAccounts c codes with
      | error e =>
        rw [hr] at h
        cases h
      | ok rest =>
        rw [hr] at h
        cases h
        obtain ⟨ih₁, ih₂⟩ := ih hr
        have hcode := Chart.code_of_findByCode hf
        refine ⟨?_, ?_⟩
        · intro x hx
          rcases List.mem_cons.mp hx with rfl | hx
          · exact ⟨a, List.mem_cons_self, hcode⟩
          · obtain ⟨b, hb, hbx⟩ := ih₁ x hx
            exact ⟨b, List.mem_cons_of_mem a hb, hbx⟩
        · intro b hb
          rcases List.mem_cons.mp hb with rfl | hb
          · rw [hcode, hf]
          · exact ih₂ b hb

theorem assertActive_ok {accounts : List Account} (h : assertActive accounts = .ok ()) :
    ∀ a ∈ accounts, a.isActive = true := by
  induction accounts with
  | nil => simp
  | cons a as ih =>
    rw [assertActive] at h
    split at h
    · rename_i ha
      intro b hb
      rcases List.mem_cons.mp hb with rfl | hb
      · exact ha
      · exact ih h b hb
    · cases h

/-- An admitted date is past the lock and, once years are defined, in an open one. -/
theorem assertPostingDateAllowed_ok {s : Books} {entryDate : ℤ}
    (h : assertPostingDateAllowed s entryDate = .ok ()) :
    (∀ d, s.lockedUntil = some d → utcEndOfDay d < entryDate) ∧
      (s.fiscalYears.rows = [] ∨ ∃ y ∈ s.fiscalYears.rows, y.status = .open ∧
        y.startDate ≤ entryDate ∧ entryDate ≤ y.endDate) := by
  unfold assertPostingDateAllowed at h
  dsimp only at h
  split at h
  · cases h
  · rename_i hunlocked
    refine ⟨?_, ?_⟩
    · intro d hd
      rw [hd] at hunlocked
      by_contra hle
      simp [not_lt.mp hle] at hunlocked
    · split at h
      · rename_i hlen
        exact .inl (List.length_eq_zero_iff.mp hlen)
      · split at h
        · cases h
        · rename_i y hy
          have hdate := List.find?_some hy
          refine .inr ⟨y, List.mem_of_find?_eq_some hy, ?_, by simpa using hdate⟩
          cases hstatus : y.status with
          | «open» => rfl
          | closed => simp [hstatus] at h

/-- Every line finds its account among those required. -/
theorem attachAccounts_spec {accounts : List Account} {lines : List LedgerLineInput}
    (h : ∀ l ∈ lines, ∃ a ∈ accounts, a.code = l.accountCode) :
    (attachAccounts accounts lines).map PostedLine.line = lines ∧
      ∀ x ∈ attachAccounts accounts lines,
        x.account ∈ accounts ∧ x.account.code = x.line.accountCode := by
  induction lines with
  | nil => simp [attachAccounts]
  | cons l lines ih =>
    obtain ⟨ih₁, ih₂⟩ := ih fun l' hl' => h l' (List.mem_cons_of_mem l hl')
    obtain ⟨a, ha, hal⟩ := h l List.mem_cons_self
    obtain ⟨b, hb⟩ : ∃ b, (accounts.find? fun a => a.code == l.accountCode) = some b := by
      rw [← Option.isSome_iff_exists, List.find?_isSome]
      exact ⟨a, ha, by simpa using hal⟩
    have hcons : attachAccounts accounts (l :: lines) =
        ⟨b, l⟩ :: attachAccounts accounts lines := by
      simp [attachAccounts, hb]
    rw [hcons]
    refine ⟨by rw [List.map_cons, ih₁], ?_⟩
    intro x hx
    rcases List.mem_cons.mp hx with rfl | hx
    · exact ⟨List.mem_of_find?_eq_some hb, by simpa using List.find?_some hb⟩
    · exact ih₂ x hx

/-- **Inversion of `checkJournal`**: what is true of the lines that it returns. -/
theorem checkJournal_ok {params : JournalInput} {s s' : Books} {posted : List PostedLine}
    (h : (checkJournal params).Ok s posted s') : Posting s params posted ∧ s' = s := by
  simp only [checkJournal, redirectCash_eq, Tx.ok_bind, Tx.ok_check, Tx.ok_get, Tx.ok_ofExcept,
    Tx.ok_pure, Except.ok.injEq] at h
  obtain ⟨_, _, ⟨hbal, rfl⟩, _, _, ⟨rfl, rfl⟩, _, _, ⟨rfl, rfl⟩, _, _, ⟨hdate, rfl⟩, accounts, _,
    ⟨hacc, rfl⟩, _, _, ⟨hact, rfl⟩, _, _, ⟨hfree, rfl⟩, rfl, rfl⟩ := h
  obtain ⟨hfound, hcodes⟩ := getRequiredAccounts_ok hacc
  have hfound' : ∀ l ∈ redirectedLines s' params, ∃ a ∈ accounts, a.code = l.accountCode := by
    intro l hl
    refine hfound l.accountCode ?_
    rw [List.mem_eraseDups]
    exact List.mem_map_of_mem hl
  obtain ⟨hlines, hmem⟩ := attachAccounts_spec hfound'
  refine ⟨⟨hbal, hlines, ?_, ?_, ?_, hfree⟩, rfl⟩
  · intro x hx
    obtain ⟨hxa, hxc⟩ := hmem x hx
    rw [← hxc]
    exact hcodes _ hxa
  · exact fun x hx => assertActive_ok hact _ (hmem x hx).1
  · intro d hd
    rw [hd] at hdate
    exact hdate

theorem readOnly_checkJournal (params : JournalInput) : (checkJournal params).ReadOnly := by
  refine Tx.readOnly_bind (Tx.readOnly_check _ _) fun _ => ?_
  refine Tx.readOnly_bind Tx.readOnly_get fun s => ?_
  refine Tx.readOnly_bind (Tx.readOnly_ofExcept _) fun lines => ?_
  refine Tx.readOnly_bind (Tx.readOnly_ofExcept _) fun _ => ?_
  refine Tx.readOnly_bind (Tx.readOnly_ofExcept _) fun accounts => ?_
  refine Tx.readOnly_bind (Tx.readOnly_ofExcept _) fun _ => ?_
  exact Tx.readOnly_bind (Tx.readOnly_check _ _) fun _ => Tx.readOnly_pure _

/-- **Inversion of `postJournal`**: what a call that returns has checked, and the only
thing it can have written. -/
theorem postJournal_ok {params : JournalInput} {s s' : Books} {id : ℕ}
    (h : (postJournal params).Ok s id s') :
    ∃ posted, Posting s params posted ∧ id = s.journals.next ∧ s' = write params posted s := by
  simp only [postJournal, Tx.ok_bind, Tx.ok_get, Tx.ok_modify, Tx.ok_pure] at h
  obtain ⟨_, _, ⟨rfl, rfl⟩, posted, t, hcheck, _, _, rfl, rfl, rfl⟩ := h
  obtain ⟨hpost, rfl⟩ := checkJournal_ok hcheck
  exact ⟨posted, hpost, rfl, rfl⟩

/-- A posting that throws has not written anything. -/
theorem failsClean_postJournal (params : JournalInput) : (postJournal params).FailsClean := by
  refine Tx.failsClean_bind Tx.readOnly_get fun s => ?_
  refine Tx.failsClean_bind (readOnly_checkJournal params) fun posted => ?_
  exact (Tx.total_bind (Tx.total_modify _) fun _ => Tx.total_pure _).failsClean

/-- **Inversion of `reverseJournal`**: the journal exists, was not reversed and is no
reversal, and its lines were posted with the sides exchanged. -/
theorem reverseJournal_ok {journalId id : ℕ} {opts : ReversalOptions} {s s' : Books}
    (h : (reverseJournal journalId opts).Ok s id s') :
    ∃ original posted, s.journals.find? journalId = some original ∧
      original.reversalOfId = none ∧
      (∀ j ∈ s.journals.rows, j.reversalOfId ≠ some journalId) ∧
      Posting s (reversalOf s original opts) posted ∧ id = s.journals.next ∧
      s' = write (reversalOf s original opts) posted s := by
  simp only [reverseJournal, Tx.ok_bind, Tx.ok_check, Tx.ok_get, Tx.ok_getOrFail] at h
  obtain ⟨_, _, ⟨rfl, rfl⟩, original, _, ⟨hfind, rfl⟩, _, _, ⟨hrev, rfl⟩, _, _, ⟨hnone, rfl⟩,
    hpost⟩ := h
  obtain ⟨posted, hp, hid, hs'⟩ := postJournal_ok hpost
  refine ⟨original, posted, hfind, by simpa using hnone, ?_, hp, hid, hs'⟩
  have hkey : original.id = journalId := Table.key_of_find? hfind
  simpa [hkey] using hrev

theorem failsClean_reverseJournal (journalId : ℕ) (opts : ReversalOptions) :
    (reverseJournal journalId opts).FailsClean := by
  refine Tx.failsClean_bind Tx.readOnly_get fun s => ?_
  refine Tx.failsClean_bind (Tx.readOnly_getOrFail _ _) fun original => ?_
  refine Tx.failsClean_bind (Tx.readOnly_check _ _) fun _ => ?_
  refine Tx.failsClean_bind (Tx.readOnly_check _ _) fun _ => ?_
  exact failsClean_postJournal _

/-! ## The effect on the tables -/

/-- What an account receives from a posted line. -/
def receive (a : Account) (x : PostedLine) : Account :=
  if a.id = x.account.id then credited x a else a

/-- The lines reach every account one after the other. -/
theorem rows_updateBalances (posted : List PostedLine) (c : Chart) :
    (updateBalances posted c).rows = c.rows.map fun a => posted.foldl receive a := by
  induction posted generalizing c with
  | nil => simp [updateBalances]
  | cons x posted ih =>
    have hstep : updateBalances (x :: posted) c =
        updateBalances posted (if deltaRial x = 0 ∧ deltaGrams x = 0 then c
          else c.update x.account.id (credited x)) := rfl
    have hrows : (if deltaRial x = 0 ∧ deltaGrams x = 0 then c
        else c.update x.account.id (credited x)).rows = c.rows.map fun a => receive a x := by
      split
      · rename_i hz
        conv_lhs => rw [← List.map_id c.rows]
        refine List.map_congr_left fun a _ => ?_
        simp [receive, credited, hz]
      · exact Chart.rows_update ..
    rw [hstep, ih, hrows, List.map_map]
    rfl

/-- A posting changes nothing about an account but its balances. -/
theorem foldl_receive (posted : List PostedLine) (a : Account) :
    ∃ rial grams, posted.foldl receive a =
      { a with balanceRial := rial, balanceGrams := grams } := by
  induction posted generalizing a with
  | nil => exact ⟨_, _, rfl⟩
  | cons x posted ih =>
    obtain ⟨rial, grams, h⟩ := ih (receive a x)
    refine ⟨rial, grams, ?_⟩
    rw [List.foldl_cons, h]
    unfold receive credited
    split <;> rfl

/-- A posting keeps the names under which the accounts are found. -/
theorem map_updateBalances {β : Type} (f : Account → β)
    (hf : ∀ a rial grams, f { a with balanceRial := rial, balanceGrams := grams } = f a)
    (posted : List PostedLine) (c : Chart) :
    (updateBalances posted c).rows.map f = c.rows.map f := by
  rw [rows_updateBalances, List.map_map]
  refine List.map_congr_left fun a _ => ?_
  obtain ⟨rial, grams, h⟩ := foldl_receive posted a
  rw [Function.comp_apply, h, hf]

theorem find?_updateBalances (posted : List PostedLine) (c : Chart) (k : ℕ) :
    (updateBalances posted c).find? k = (c.find? k).map fun a => posted.foldl receive a := by
  have hkey : ((fun r => Account.id r == k) ∘ fun a => posted.foldl receive a) =
      fun r => Account.id r == k := by
    funext a
    obtain ⟨rial, grams, h⟩ := foldl_receive posted a
    simp [h]
  have hrows := rows_updateBalances posted c
  simp only [Chart.rows] at hrows
  simp only [Chart.find?, Table.find?, hrows, List.find?_map, hkey]

theorem findByCode_updateBalances (posted : List PostedLine) (c : Chart) (code : String) :
    (updateBalances posted c).findByCode code =
      (c.findByCode code).map fun a => posted.foldl receive a := by
  have hkey : ((fun r => Account.code r == code) ∘ fun a => posted.foldl receive a) =
      fun r => Account.code r == code := by
    funext a
    obtain ⟨rial, grams, h⟩ := foldl_receive posted a
    simp [h]
  simp only [Chart.findByCode, rows_updateBalances, List.find?_map, hkey]

@[simp] theorem entries_write (params : JournalInput) (posted : List PostedLine) (s : Books) :
    (write params posted s).entries = s.entries ++ posted.map ledgerEntry := by
  simp [write, createJournal, Books.entries, Table.create]

@[simp] theorem accounts_write (params : JournalInput) (posted : List PostedLine) (s : Books) :
    (write params posted s).accounts = updateBalances posted s.accounts := rfl

end AccountingService

end ArkanGold
