import ArkanGold.Lib.Tx
import ArkanGold.Lib.Table
import ArkanGold.Lib.Numeric
import ArkanGold.Lib.DoubleEntry
import ArkanGold.Common.Basics

/-!
# The books

The tables that the accounting services read and write.

- Rial columns are `numeric(18,0)` and gram columns `numeric(18,4)`: balances and
  amounts are stored as integers, in rials and in units of `0.0001` g. What a
  caller passes is a decimal and is rational.
- `Chart`: the accounts, with the unique constraint on `code`.
- A journal entry carries its ledger entries; nothing writes the two apart.
- `Books.lockedUntil` is the setting `accounting.locked_until` as a calendar day;
  every other setting is in `Books.systemConfig`.
-/

namespace ArkanGold

/-- `LedgerSide` -/
abbrev LedgerSide := DoubleEntry.Side

/-- `AccountType` -/
inductive AccountType where
  | asset
  | liability
  | equity
  | income
  | expense
  deriving DecidableEq, Repr

/-- `JournalSource` -/
inductive JournalSource where
  | system
  | manual
  | opening
  | closing
  | revaluation
  | reversal
  | treasury
  | partner
  | inventory
  deriving DecidableEq, Repr

/-- `FiscalYearStatus` -/
inductive FiscalYearStatus where
  | open
  | closed
  deriving DecidableEq, Repr

/-- The places of a rial column. -/
abbrev rialScale : ℕ := 0

/-- The places of a gram column. -/
abbrev gramScale : ℕ := 4

/-- A row of `accounts`. -/
structure Account where
  id : ℕ
  code : String
  name : String
  type : AccountType
  balanceRial : ℤ
  balanceGrams : ℤ
  parentId : Option ℕ
  isActive : Bool
  deriving DecidableEq

/-- A row of `ledger_entries`. -/
structure LedgerEntry where
  accountId : ℕ
  side : LedgerSide
  amountRial : ℤ
  amountGrams : ℤ
  description : Option String
  deriving DecidableEq

/-- A row of `journal_entries` with its ledger entries. -/
structure JournalEntry where
  id : ℕ
  description : String
  totalRial : ℤ
  totalGrams : ℤ
  source : JournalSource
  referenceType : Option String
  referenceId : Option ℕ
  createdByAdminId : Option ℕ
  reversalOfId : Option ℕ
  transactionId : Option ℕ
  entryDate : ℤ
  referenceNumber : ℕ
  permanentNumber : Option ℕ
  fiscalYearId : Option ℕ
  finalizedAt : Option ℤ
  ledgerEntries : List LedgerEntry
  deriving DecidableEq

/-- A row of `fiscal_years`. -/
structure FiscalYear where
  id : ℕ
  title : String
  startDate : ℤ
  endDate : ℤ
  status : FiscalYearStatus
  closedAt : Option ℤ
  closedByAdminId : Option ℕ
  closingJournalId : Option ℕ
  deriving DecidableEq

/-- The table `accounts`: a table whose codes are unique as well. -/
structure Chart where
  table : Table Account Account.id
  code_nodup : (table.rows.map Account.code).Nodup

namespace Chart

/-- The accounts. -/
def rows (c : Chart) : List Account := c.table.rows

/-- The account with the id `k`. -/
def find? (c : Chart) (k : ℕ) : Option Account := c.table.find? k

/-- The account with the code `code`. -/
def findByCode (c : Chart) (code : String) : Option Account :=
  c.rows.find? fun a => a.code == code

/-- Rewrite the account with the id `k`; neither key may change. -/
def update (c : Chart) (k : ℕ) (f : Account → Account)
    (hid : ∀ a, (f a).id = a.id := by intro _; rfl)
    (hcode : ∀ a, (f a).code = a.code := by intro _; rfl) : Chart where
  table := c.table.update k f hid
  code_nodup := by
    have hmap : (c.table.update k f hid).rows.map Account.code =
        c.table.rows.map Account.code := by
      simp only [Table.update, Table.updateWhere, List.map_map]
      refine List.map_congr_left fun a _ => ?_
      simp only [Function.comp_apply]
      split <;> simp [hcode]
    rw [hmap]
    exact c.code_nodup

theorem findByCode_eq_some {c : Chart} {code : String} {a : Account} :
    c.findByCode code = some a ↔ a ∈ c.rows ∧ a.code = code := by
  constructor
  · intro h
    exact ⟨List.mem_of_find?_eq_some h, by simpa using List.find?_some h⟩
  · rintro ⟨hmem, rfl⟩
    obtain ⟨b, hb⟩ : ∃ b, c.findByCode a.code = some b := by
      rw [← Option.isSome_iff_exists, findByCode, List.find?_isSome]
      exact ⟨a, hmem, by simp⟩
    have hcode : b.code = a.code := by simpa using List.find?_some hb
    rw [hb, List.inj_on_of_nodup_map c.code_nodup (List.mem_of_find?_eq_some hb) hmem hcode]

theorem mem_of_findByCode {c : Chart} {code : String} {a : Account}
    (h : c.findByCode code = some a) : a ∈ c.rows := (findByCode_eq_some.mp h).1

theorem code_of_findByCode {c : Chart} {code : String} {a : Account}
    (h : c.findByCode code = some a) : a.code = code := (findByCode_eq_some.mp h).2

theorem find?_of_mem {c : Chart} {a : Account} (h : a ∈ c.rows) : c.find? a.id = some a :=
  Table.find?_of_mem h

/-- Both lookups see the same rows. -/
theorem find?_of_findByCode {c : Chart} {code : String} {a : Account}
    (h : c.findByCode code = some a) : c.find? a.id = some a :=
  find?_of_mem (mem_of_findByCode h)

@[simp] theorem find?_update (c : Chart) (k : ℕ) (f : Account → Account)
    (hid : ∀ a, (f a).id = a.id) (hcode : ∀ a, (f a).code = a.code) (k' : ℕ) :
    (c.update k f hid hcode).find? k' =
      (c.find? k').map fun a => if a.id = k then f a else a := by
  simp only [find?, update, Table.update, Table.find?_updateWhere, beq_iff_eq]

theorem rows_update (c : Chart) (k : ℕ) (f : Account → Account)
    (hid : ∀ a, (f a).id = a.id) (hcode : ∀ a, (f a).code = a.code) :
    (c.update k f hid hcode).rows = c.rows.map fun a => if a.id = k then f a else a := by
  simp only [rows, update, Table.update, Table.updateWhere, beq_iff_eq]

end Chart

/-- The tables and settings of the accounting services, and the clock. -/
structure Books where
  accounts : Chart
  journals : Table JournalEntry JournalEntry.id
  /-- the next value of `reference_number` -/
  nextReference : ℕ
  fiscalYears : Table FiscalYear FiscalYear.id
  lockedUntil : Option ℤ
  systemConfig : String → Option String
  now : ℤ

namespace Books

/-- The rows of `ledger_entries`. -/
def entries (s : Books) : List LedgerEntry := s.journals.rows.flatMap JournalEntry.ledgerEntries

/-- The code of the account with the id `k`. -/
def codeOf (s : Books) (k : ℕ) : Option String := (s.accounts.find? k).map Account.code

end Books

/-- `isDebitNature`: accounts 1xxx (assets) and 5xxx (expenses). -/
def isDebitNature (code : String) : Bool := code.startsWith "1" || code.startsWith "5"

/-- The side on which an account of this code grows. -/
def natureOf (code : String) : LedgerSide := if isDebitNature code then .debit else .credit

/-- `deltaSign` -/
def deltaSign (code : String) (side : LedgerSide) : ℤ :=
  match side with
  | .debit => if isDebitNature code then 1 else -1
  | .credit => if isDebitNature code then -1 else 1

theorem deltaSign_eq (code : String) (side : LedgerSide) :
    deltaSign code side = if side = natureOf code then 1 else -1 := by
  unfold deltaSign natureOf
  cases side <;> cases isDebitNature code <;> rfl

theorem deltaSign_opposite (code : String) (side : LedgerSide) :
    deltaSign code side.opposite = -deltaSign code side := by
  unfold deltaSign
  cases side <;> cases isDebitNature code <;> rfl

namespace ACC

/-- `CASH` -/
def CASH : String := "1010"

/-- `RETAINED_EARNINGS` -/
def RETAINED_EARNINGS : String := "3020"

end ACC

end ArkanGold
