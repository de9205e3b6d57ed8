import Conform.Schema.Describe
import Conform.Schema.Reach
import Conform.Schema.Show
import Conform.Proofs.Policy
import Conform.Proofs.Dependency.Order
import Conform.Proofs.Schema.Everywhere
import Conform.Proofs.Schema.Edits
import Conform.Proofs.Schema.Regular
import Conform.Proofs.Schema.Building
import Conform.Proofs.Validation.Node
import Conform.Proofs.Validation.Ranking
import Conform.Proofs.Validation.Run
import Conform.Proofs.Validation.Acceptance
import Conform.Proofs.Validation.Collection
import Conform.Proofs.Schema.Mistakes
import Conform.Proofs.Validation.Unaware
import Conform.Proofs.Validation.Agreement
import Conform.Proofs.Validation.ItemConditions
import Conform.Proofs.Dependency.Topological
import Conform.Proofs.Validation.StrictFields
import Conform.Proofs.Schema.Obtained
import Conform.Proofs.Validation.FieldConditions
import Conform.Proofs.Validation.Failures
import Conform.Proofs.Validation.BadData
import Conform.Proofs.Validation.Clashes
import Conform.Proofs.Polling
import Conform.Proofs.Settling
import Conform.Proofs.Validation.Invocation
import Conform.Proofs.Schema.Reaching
import Conform.Proofs.Validation.Synchrony
import Conform.Proofs.Schema.Prompt
import Conform.Proofs.Schema.PromptBuilding
import Conform.Proofs.Validation.Delays
import Conform.Proofs.Schema.Concatenation
import Conform.Proofs.Schema.TypeMessage
import Conform.Proofs.Validation.TypeMessage
import Conform.Proofs.Validation.ViolationTrees
import Conform.Proofs.Schema.Recasting
import Conform.Proofs.Schema.Enforcement
import Conform.Proofs.Validation.Lists
import Conform.Proofs.Value.Equality
import Conform.Proofs.Schema.Composing
import Conform.Proofs.Schema.Separation
import Conform.Proofs.Ascending
import Conform.Proofs.Schema.Fitting
import Conform.Proofs.Validation.Stripping
import Conform.Proofs.Validation.StrippedField
import Conform.Proofs.Path.Text
import Conform.Proofs.Path.Notation
import Conform.Proofs.Schema.Placeless
import Conform.Proofs.Validation.Places
import Conform.Proofs.Validation.Retracing
import Conform.Proofs.Validation.Locating
import Conform.Proofs.Schema.Readding
import Conform.Proofs.Schema.Doubling
import Conform.Proofs.Validation.ListedEntries
import Conform.Proofs.Schema.CastKeys
import Conform.Proofs.Schema.Supplying
import Conform.Proofs.Schema.Ensuring
import Conform.Proofs.Path.Spelling
import Conform.Proofs.Schema.Moving
import Conform.Proofs.Validation.Originals
import Conform.Proofs.Schema.SiblingFields
import Conform.Proofs.Schema.FirstItems
import Conform.Proofs.Number.Rounding
import Conform.Proofs.Value.Rounding
import Conform.Proofs.Validation.NumberBounds
import Conform.Proofs.Schema.IntegerText
import Conform.Proofs.EntrySet.Membership
import Conform.Proofs.Schema.LastBound
import Conform.Proofs.Validation.Required
import Conform.Proofs.Path.Modes
import Conform.Proofs.Registry
import Conform.Proofs.Text.Template
