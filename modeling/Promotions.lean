import Promotions.Reward.Json
import Promotions.Rule.Json
import Promotions.RuleBook.Edit
import Promotions.Settings.Json
import Promotions.Proofs.Fallible
import Promotions.Proofs.Expr.Grammar
import Promotions.Proofs.Expr.Reading
import Promotions.Proofs.Expr.Acceptance
import Promotions.Proofs.Expr.Limits
import Promotions.Proofs.Expr.Misfit
import Promotions.Proofs.Expr.Endless
import Promotions.Proofs.Decimal.RoundTrip
import Promotions.Proofs.Token.Scanning
import Promotions.Proofs.Token.Words
import Promotions.Proofs.Token.Lexemes
import Promotions.Proofs.Token.Tiling
import Promotions.Proofs.Token.Separation
import Promotions.Proofs.Expr.Printing
import Promotions.Proofs.Expr.RoundTrip
import Promotions.Proofs.Expr.Names
import Promotions.Proofs.Expr.Kinds
import Promotions.Proofs.Expr.Lookups
import Promotions.Proofs.Decimal.Nearest
import Promotions.Proofs.Decimal.Order
import Promotions.Proofs.Value.Order
import Promotions.Proofs.Expr.Laws
import Promotions.Proofs.Decimal.Exact
import Promotions.Proofs.Action.Bound
import Promotions.Proofs.Action.Valid
import Promotions.Proofs.Action.Fault
import Promotions.Proofs.Action.Failure
import Promotions.Proofs.Decimal.Fitted
import Promotions.Proofs.Decimal.Reading
import Promotions.Proofs.Token.Numbers
import Promotions.Proofs.Action.Tiers
import Promotions.Proofs.Action.Formula
import Promotions.Proofs.Reward.Worth
import Promotions.Proofs.Reward.Best
import Promotions.Proofs.Reward.Discounts
import Promotions.Proofs.Action.Growth
import Promotions.Proofs.Action.Choice
import Promotions.Proofs.Action.Discounts
import Promotions.Proofs.Action.Overflow
import Promotions.Proofs.Action.TierOrder
import Promotions.Proofs.Action.Footprint
import Promotions.Proofs.Decimal.Total
import Promotions.Proofs.Reward.Regrouping
import Promotions.Proofs.RuleBook.Priority
import Promotions.Proofs.Rule.Compiled
import Promotions.Proofs.RuleBook.History
import Promotions.Proofs.RuleBook.Export
import Promotions.Proofs.RuleBook.Batch
import Promotions.Proofs.RuleBook.Atomic
import Promotions.Proofs.Documents
import Promotions.Proofs.Json.Forms
import Promotions.Proofs.Json.Rewording
import Promotions.Proofs.RuleBook.Admission
import Promotions.Proofs.RuleBook.Arrival
import Promotions.Proofs.Rule.Exclusive
import Promotions.Proofs.RuleBook.Evaluation
import Promotions.Proofs.RuleBook.Reporting
import Promotions.Proofs.RuleBook.Best
import Promotions.Proofs.RuleBook.Disabling
import Promotions.Proofs.Callable.Builtin
