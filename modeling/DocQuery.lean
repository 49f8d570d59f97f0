import DocQuery.Engine.Basic
import DocQuery.Document.User
import DocQuery.Filter.Meaning
import DocQuery.Filter.Printer
import DocQuery.Json.Reader
import DocQuery.Mongo.Matching
import DocQuery.Mongo.Expression
import DocQuery.Mongo.Stored
import DocQuery.Store.History
import DocQuery.Proofs.Engine.Outcome
import DocQuery.Proofs.Predicate.Acceptance
import DocQuery.Proofs.Store.Matching
import DocQuery.Proofs.Filter.Resolution
import DocQuery.Proofs.Filter.Grouping
import DocQuery.Proofs.Hydration.Coverage
import DocQuery.Proofs.Store.Order
import DocQuery.Proofs.Hydration.Direct
import DocQuery.Proofs.Engine.Pages
import DocQuery.Proofs.Document
import DocQuery.Proofs.Relation.Candidates
import DocQuery.Proofs.Text.Pieces
import DocQuery.Proofs.Filter.Hydrated
import DocQuery.Proofs.Filter.LookUps
import DocQuery.Proofs.Filter.Key
import DocQuery.Proofs.Mongo.Agreement
import DocQuery.Proofs.Store.ScanOrder
import DocQuery.Proofs.Mongo.Grammar
import DocQuery.Proofs.Query.TextMembers
import DocQuery.Proofs.Engine.Refusal
import DocQuery.Proofs.Hydration.Levels
import DocQuery.Proofs.Engine.ById
import DocQuery.Proofs.Filter.Scans
import DocQuery.Proofs.Mongo.Arrays
import DocQuery.Proofs.Mongo.Identity
import DocQuery.Proofs.Predicate.Instants
import DocQuery.Proofs.Relation.Plurals
import DocQuery.Proofs.Number.Decimal
import DocQuery.Proofs.Number.Rounding
import DocQuery.Proofs.Hydration.Shown
import DocQuery.Proofs.Hydration.Nulls
import DocQuery.Proofs.Hydration.Merging
import DocQuery.Proofs.Number.Shortest
import DocQuery.Proofs.Number.Format
import DocQuery.Proofs.Relation.NumericKeys
import DocQuery.Proofs.Predicate.LetterCase
import DocQuery.Proofs.Predicate.Integers
import DocQuery.Proofs.Store.Chronology
import DocQuery.Proofs.Document.Entity
import DocQuery.Proofs.Selection.Whole
import DocQuery.Proofs.Engine.Selected
import DocQuery.Proofs.Query.Reordering
import DocQuery.Proofs.Engine.Warnings
import DocQuery.Proofs.Predicate.Simplification
import DocQuery.Proofs.Predicate.OwnLiterals
import DocQuery.Proofs.Hydration.Prefixes
import DocQuery.Proofs.Mongo.Patterns
import DocQuery.Proofs.Mongo.Searches
