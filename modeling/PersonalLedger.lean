import PersonalLedger.Main
import PersonalLedger.Time.Date.Lemmas
import PersonalLedger.Proofs.Ledger.Failure
import PersonalLedger.Proofs.Ledger.Journal
import PersonalLedger.Proofs.Ledger.Operation
import PersonalLedger.Proofs.Ledger.Repetition
import PersonalLedger.Proofs.Ledger.Standing
import PersonalLedger.Proofs.Time.Cycle
import PersonalLedger.Proofs.Ledger.Listing
import PersonalLedger.Proofs.Store.Ownership
import PersonalLedger.Proofs.Ledger.Isolation
import PersonalLedger.Proofs.Ledger.Preference
import PersonalLedger.Proofs.Ledger.Undo
import PersonalLedger.Proofs.Ledger.Corruption
import PersonalLedger.Proofs.Ledger.Reproduction
import PersonalLedger.Proofs.Ledger.Wording
import PersonalLedger.Proofs.Ledger.Totals
import PersonalLedger.Proofs.CommandLine.Agreement
import PersonalLedger.Proofs.Time.RowText
import PersonalLedger.Proofs.Store.Refusal
import PersonalLedger.Proofs.Fingerprint.Distinction
import PersonalLedger.Proofs.Command.RemoveRequest
import PersonalLedger.Proofs.Ledger.Removal
import PersonalLedger.Proofs.Store.Selection
import PersonalLedger.Proofs.Totals.Overflow
import PersonalLedger.Proofs.Decimal.Sum
import PersonalLedger.Proofs.Totals.Exactness
import PersonalLedger.Proofs.Command.Listing
import PersonalLedger.Proofs.Decimal.Rounding
import PersonalLedger.Proofs.Totals.Rounding
import PersonalLedger.Proofs.Command.Amount
import PersonalLedger.Proofs.Time.Midnight
import PersonalLedger.Proofs.Time.StartDate
import PersonalLedger.Proofs.Command.AddRequest
import PersonalLedger.Proofs.Command.Ambiguity
import PersonalLedger.Proofs.Text.Table
import PersonalLedger.Proofs.Reply.Table
import PersonalLedger.Proofs.Reply.Since
