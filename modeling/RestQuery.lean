import RestQuery.Request
import RestQuery.Settings.Document
import RestQuery.Proofs.Dict
import RestQuery.Proofs.Level
import RestQuery.Proofs.Expansion.Marks
import RestQuery.Proofs.Expansion.Exact
import RestQuery.Proofs.Expansion.Items
import RestQuery.Proofs.Parsed
import RestQuery.Proofs.Placement
import RestQuery.Proofs.Expansion.Kept
import RestQuery.Proofs.Expansion.Keys
import RestQuery.Proofs.Load.Tree
import RestQuery.Proofs.Load.Run
import RestQuery.Proofs.Load.Association
import RestQuery.Proofs.Load.Agreement
import RestQuery.Proofs.Load.Rowwise
import RestQuery.Proofs.Load.Join
import RestQuery.Proofs.Load.Owners
import RestQuery.Proofs.Load.Nested
import RestQuery.Proofs.Load.Defaults
import RestQuery.Proofs.AllowList
import RestQuery.Proofs.Cleaning
import RestQuery.Proofs.Load.Failing
import RestQuery.Proofs.Load.Resolved
import RestQuery.Proofs.Load.Sent
import RestQuery.Proofs.Sql.Tie
import RestQuery.Proofs.Sql.Truth
import RestQuery.Proofs.Sql.Precedence
import RestQuery.Proofs.Sql.Outline
import RestQuery.Proofs.Sql.Scan
import RestQuery.Proofs.Sql.Phrase
import RestQuery.Proofs.Sql.FullText
import RestQuery.Proofs.Sql.Clauses
import RestQuery.Proofs.Sql.Placeholders
import RestQuery.Proofs.Scored
import RestQuery.Proofs.Load.Depth
import RestQuery.Proofs.Calls
import RestQuery.Proofs.SingleRow
import RestQuery.Proofs.AgreeOn
import RestQuery.Proofs.Asked
import RestQuery.Proofs.Parameters
import RestQuery.Proofs.Load.Once
import RestQuery.Proofs.Load.Stops
import RestQuery.Proofs.Filing
import RestQuery.Proofs.FirstFault
import RestQuery.Proofs.Load.Shape
import RestQuery.Proofs.Text.Utf8
import RestQuery.Proofs.Text.Urlencoded
import RestQuery.Proofs.Echo
import RestQuery.Proofs.Text.Like
import RestQuery.Proofs.Negation
import RestQuery.Proofs.Keywords
import RestQuery.Proofs.Sql.Joined
import RestQuery.Proofs.Sql.Reading
import RestQuery.Proofs.Glob
import RestQuery.Proofs.Page
import RestQuery.Proofs.Load.Keys
import RestQuery.Proofs.Filter.Key
import RestQuery.Proofs.Filter.Spelling
import RestQuery.Proofs.Expansion.Written
import RestQuery.Proofs.Projection
import RestQuery.Proofs.Reply
import RestQuery.Proofs.Headers
import RestQuery.Proofs.Range
import RestQuery.Proofs.Load.Steady
import RestQuery.Proofs.Envelope
import RestQuery.Proofs.Sql.Terms
import RestQuery.Proofs.Filter.Flat
import RestQuery.Proofs.Load.FirstMatch
import RestQuery.Proofs.Load.LocalKey
import RestQuery.Proofs.Load.Groups
import RestQuery.Proofs.Inserted
