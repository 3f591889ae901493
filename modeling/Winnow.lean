import Winnow.Engine.Execute
import Winnow.Listing.Overflow
import Winnow.Listing.Request
import Winnow.Main
import Winnow.Resource.Listing
import Winnow.SavedFilter.Service
import Winnow.Sql.Writer
import Winnow.Proofs.Compile.Additions
import Winnow.Proofs.Compile.Resolved
import Winnow.Proofs.Compile.Validation
import Winnow.Proofs.Compile.Agreement
import Winnow.Proofs.Engine.Matching
import Winnow.Proofs.Listing.Narrowing
import Winnow.Proofs.Listing.Rules
import Winnow.Proofs.Sql.Tokens
import Winnow.Proofs.Sql.Spacing
import Winnow.Proofs.Sql.Contents
import Winnow.Proofs.Sql.Reading
import Winnow.Proofs.Sql.Statements
import Winnow.Proofs.Sql.Writing
import Winnow.Proofs.Sql.Placeholders
import Winnow.Proofs.Sql.Shape
import Winnow.Proofs.Sql.Truth
import Winnow.Proofs.Sql.Rows
import Winnow.Proofs.SavedFilter.Operations
import Winnow.Proofs.SavedFilter.History
import Winnow.Proofs.SavedFilter.Interleaving
import Winnow.Proofs.Compile.Collected
import Winnow.Proofs.Engine.Scoped
import Winnow.Proofs.Listing.Scopes
import Winnow.Proofs.Calendar.LocalDay
import Winnow.Proofs.Calendar.PlainDate
import Winnow.Proofs.Listing.LocalDays
import Winnow.Proofs.Query.Scopes
import Winnow.Proofs.Query.Closed
import Winnow.Proofs.Compile.Typed
import Winnow.Proofs.Compile.Closed
import Winnow.Proofs.Listing.Closed
import Winnow.Proofs.Engine.Kleene
import Winnow.Proofs.Listing.ThreeValued
import Winnow.Proofs.Compile.Outcome
import Winnow.Proofs.SavedFilter.Prediction
import Winnow.Proofs.Listing.Authorization
import Winnow.Proofs.Listing.Pages
import Winnow.Proofs.Listing.SearchFields
import Winnow.Proofs.Listing.SearchRows
import Winnow.Proofs.Calendar.Range
import Winnow.Proofs.Compile.Overflow
import Winnow.Proofs.Compile.Bounds
import Winnow.Proofs.Listing.Overflow
import Winnow.Proofs.SavedFilter.Visibility
import Winnow.Proofs.SavedFilter.Failures
import Winnow.Proofs.Engine.JoinAliases
import Winnow.Proofs.Listing.Intersection
import Winnow.Proofs.Condition.Ranges
import Winnow.Proofs.Compile.Transparency
import Winnow.Proofs.Compile.Completeness
import Winnow.Proofs.Listing.Orders
import Winnow.Proofs.Calendar.Tiling
import Winnow.Proofs.Condition.Opposites
import Winnow.Proofs.Rule.CurrentUser
import Winnow.Proofs.Rule.WireForm
import Winnow.Proofs.Filter.Construction
import Winnow.Proofs.Engine.Sorting
import Winnow.Proofs.Engine.SortLaws
import Winnow.Proofs.Decimal.Exact
import Winnow.Proofs.Engine.Aggregates
import Winnow.Proofs.Query.Aggregates
import Winnow.Proofs.Sql.Aggregates
import Winnow.Proofs.Sql.Refusals
import Winnow.Proofs.Compile.Shapes
import Winnow.Proofs.Listing.Leniency
import Winnow.Proofs.Listing.Rendering
import Winnow.Proofs.Filter.Derived
import Winnow.Proofs.CommandLine.Strict
import Winnow.Proofs.Engine.Like
import Winnow.Proofs.Condition.Patterns
import Winnow.Proofs.Condition.DateTexts
import Winnow.Proofs.Condition.DateSpelling
import Winnow.Proofs.Settings.Passwords
import Winnow.Proofs.Listing.PageArithmetic
import Winnow.Proofs.Condition.Keys
import Winnow.Proofs.Query.AggregateNames
import Winnow.Proofs.Query.Paths
