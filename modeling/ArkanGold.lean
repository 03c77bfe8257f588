import ArkanGold.Lib.Tx
import ArkanGold.Lib.Runs
import ArkanGold.Lib.Block
import ArkanGold.Lib.Calls
import ArkanGold.Lib.Interleaving
import ArkanGold.Lib.Numeric
import ArkanGold.Lib.Table
import ArkanGold.Lib.Statements
import ArkanGold.Lib.DoubleEntry
import ArkanGold.Common.Basics
import ArkanGold.Common.Format
import ArkanGold.Accounting.Books
import ArkanGold.Accounting.Posting
import ArkanGold.Store.Database
import ArkanGold.Accounting.LedgerIntegrity
import ArkanGold.Lib.Rank
import ArkanGold.Accounting.FiscalYears
import ArkanGold.Accounting.ClosedBooks
import ArkanGold.Accounting.PermanentNumbers
import ArkanGold.Market.Trading
import ArkanGold.Market.LockedPrice
import ArkanGold.Lib.Json
import ArkanGold.Lib.HashChain
import ArkanGold.Common.IsoText
import ArkanGold.Audit.Payload
import ArkanGold.Audit.AuditService
import ArkanGold.Audit.ChainCompleteness
import ArkanGold.Audit.ChainSoundness
import ArkanGold.Lib.OrderedMap
import ArkanGold.TaxBooks.Builder
import ArkanGold.TaxBooks.ModesAgree
import ArkanGold.TaxBooks.FileSoundness
import ArkanGold.Accounting.BankReconciliation
import ArkanGold.Accounting.ReconciliationStack
import ArkanGold.Lib.Tiling
import ArkanGold.Common.IsoDay
import ArkanGold.TaxBooks.TaxBooksService
import ArkanGold.TaxBooks.ExportDiscipline
import ArkanGold.TaxBooks.PeriodsTile
import ArkanGold.Store.OfficeDatabase
import ArkanGold.Bars.Hologram
import ArkanGold.Bars.Buyback
import ArkanGold.Lib.Confined
import ArkanGold.Partners.PartnerOrders
import ArkanGold.Partners.RefundInverse
import ArkanGold.Accounting.Reversal
import ArkanGold.Accounting.ControlAccount
import ArkanGold.Store.OfficeRules
import ArkanGold.Partners.OrderDiscipline
import ArkanGold.Partners.OrdersAgree
import ArkanGold.Deposits.DepositService
import ArkanGold.Deposits.DepositDiscipline
import ArkanGold.Deposits.LifeCycle
import ArkanGold.Lib.Rights
import ArkanGold.Auth.Sessions
import ArkanGold.Auth.SessionChains
import ArkanGold.Payroll.PayrollService
import ArkanGold.Payroll.SalariesPaidOnce
import ArkanGold.Lib.Chronicle
import ArkanGold.Market.PriceService
import ArkanGold.Market.GuardedPrices
import ArkanGold.Auth.OneTimeCodes
import ArkanGold.Auth.CodeAttempts
import ArkanGold.Auth.SendQuota
import ArkanGold.Auth.GuessingBounded
import ArkanGold.Lib.Decimal
import ArkanGold.Accounting.GoldCustody
import ArkanGold.Shop.GoldBarPayment
import ArkanGold.Accounting.Revaluation
import ArkanGold.Accounting.YearEnd
import ArkanGold.Accounting.TrialBalance
import ArkanGold.Accounting.CashFlow
import ArkanGold.Common.Text
import ArkanGold.Invoices.Documents
import ArkanGold.Invoices.Verification
import ArkanGold.Lib.Apportion
import ArkanGold.Shop.Checkout
import ArkanGold.Shop.OrderAmounts
import ArkanGold.Invoices.ShopInvoices
import ArkanGold.Lib.Guarantee
import ArkanGold.Admins.AdminManagement
import ArkanGold.Admins.Effects
import ArkanGold.Admins.LastSuperAdmin
import ArkanGold.Admins.Escalation
import ArkanGold.Auth.SecondFactor
import ArkanGold.Auth.FactorsOneTime
import ArkanGold.Auth.StepUp
import ArkanGold.Auth.StepUpBounded
import ArkanGold.Auth.LoginChallenge
import ArkanGold.Auth.ChallengesBounded
import ArkanGold.Common.CircuitBreaker
import ArkanGold.Common.ClientIp
import ArkanGold.Common.ForwardedIdentity
import ArkanGold.Common.Jalali
import ArkanGold.Lib.Lots
import ArkanGold.Treasury.Coverage
import ArkanGold.Treasury.Recommendation
import ArkanGold.Lib.Fallible
import ArkanGold.FileSecurity.ArchiveInspector
import ArkanGold.FileSecurity.ArchiveSound
import ArkanGold.Lib.FirstChoice
import ArkanGold.Shop.ShippingCalculator
import ArkanGold.Shop.ShippingPrices
import ArkanGold.Lib.Demand
import ArkanGold.Agents.AgentPurchaseService
import ArkanGold.Agents.HandsOver
import ArkanGold.Lib.CheckDigits
import ArkanGold.Common.Iban
import ArkanGold.Lib.Positional
import ArkanGold.Lib.Regroup
import ArkanGold.Auth.Base32
import ArkanGold.Lib.Tree
import ArkanGold.Common.ResponseAllowlist
import ArkanGold.Lib.EditDistance
import ArkanGold.Lib.Binary
import ArkanGold.Livechat.LivechatText
import ArkanGold.Lib.Words
import ArkanGold.Common.PersianWords
import ArkanGold.Partners.OrderByAmount
import ArkanGold.Lib.Csv
import ArkanGold.Lib.Xml
import ArkanGold.TaxBooks.BookFiles
import ArkanGold.Lib.Pieces
import ArkanGold.Common.IpAddress
import ArkanGold.Common.IpSpellings
import ArkanGold.Auth.SessionNetwork
import ArkanGold.Audit.Redaction
import ArkanGold.Market.RoundTrips
import ArkanGold.Accounting.ReversalPairs
import ArkanGold.Common.OpensAfterFailures
import ArkanGold.Common.IbanCheckDigits
import ArkanGold.Shop.SavedRates
