import CustomElements.Change
import CustomElements.Component.AttributeText
import CustomElements.Component.Definition
import CustomElements.Component.Instance
import CustomElements.Component.Property
import CustomElements.Config.Directory
import CustomElements.Config.Error
import CustomElements.Config.FileName
import CustomElements.Config.Format
import CustomElements.Decimal.Layout
import CustomElements.Decimal.Reader
import CustomElements.Decimal.Shortest
import CustomElements.Fields
import CustomElements.Identity
import CustomElements.Jinja.Arguments
import CustomElements.Jinja.Environment
import CustomElements.Jinja.Error
import CustomElements.Jinja.Eval
import CustomElements.Jinja.Filter
import CustomElements.Jinja.Operators
import CustomElements.Jinja.Order
import CustomElements.Jinja.Parser
import CustomElements.Jinja.Printer
import CustomElements.Jinja.Program
import CustomElements.Jinja.Store
import CustomElements.Jinja.Test
import CustomElements.Jinja.Token
import CustomElements.Jinja.Value
import CustomElements.Json.Printer
import CustomElements.Json.Reader
import CustomElements.Json.Skip
import CustomElements.Json.Value
import CustomElements.Markup.Node
import CustomElements.Markup.Printer
import CustomElements.Markup.Reader.Adoption
import CustomElements.Markup.Reader.Builder
import CustomElements.Markup.Reader.Grove
import CustomElements.Markup.Reader.NamedCharacters
import CustomElements.Markup.Reader.Names
import CustomElements.Markup.Reader.Parser
import CustomElements.Markup.Reader.Reference
import CustomElements.Markup.Reader.Rules
import CustomElements.Markup.Reader.Token
import CustomElements.Markup.Scope
import CustomElements.Markup.Slot
import CustomElements.Markup.Walk
import CustomElements.Options
import CustomElements.Options.Reader
import CustomElements.Proofs.Cache.History
import CustomElements.Proofs.Cache.Slots
import CustomElements.Proofs.Expansion.Completeness
import CustomElements.Proofs.Expansion.Conservation
import CustomElements.Proofs.Expansion.Content
import CustomElements.Proofs.Expansion.Identifiers
import CustomElements.Proofs.Expansion.Ledger
import CustomElements.Proofs.Expansion.Parts
import CustomElements.Proofs.Expansion.Relation
import CustomElements.Proofs.Expansion.Sheets
import CustomElements.Proofs.Markup.Distribution
import CustomElements.Proofs.Markup.Elements
import CustomElements.Proofs.Markup.Frame
import CustomElements.Proofs.Markup.Scoping
import CustomElements.Proofs.Session.Calls
import CustomElements.Proofs.Session.Identifiers
import CustomElements.Proofs.Session.Indices
import CustomElements.Proofs.Session.Reachable
import CustomElements.Proofs.Session.Rollback
import CustomElements.Proofs.Session.SharedSheets
import CustomElements.Proofs.Steps
import CustomElements.Proofs.Style.Identifier
import CustomElements.Render.Expand
import CustomElements.Render.Session
import CustomElements.Style.Parser
import CustomElements.Style.Sheet
import CustomElements.Style.Token
import CustomElements.Template.Definition
import CustomElements.Template.Error
import CustomElements.Template.Memo
import CustomElements.Template.Result
import CustomElements.Template.TextTemplate
import CustomElements.Text.Blank
import CustomElements.Text.Case
import CustomElements.Text.CaseTable
import CustomElements.Text.Glyphless
import CustomElements.Text.Quoted
import CustomElements.Text.Search
import CustomElements.Theme
import CustomElements.Theme.Reader
import CustomElements.Yaml.Cursor
import CustomElements.Yaml.Node
import CustomElements.Yaml.Scalar
import CustomElements.Yaml.Token
import CustomElements.Yaml.Value
import CustomElements.Proofs.Expansion.Lockstep
import CustomElements.Proofs.Expansion.Capabilities
import CustomElements.Proofs.Expansion.Unstyled
import CustomElements.Proofs.Session.Independence
import CustomElements.Proofs.Expansion.Room
import CustomElements.Proofs.Cache.Direct
import CustomElements.Proofs.Session.Footprint
import CustomElements.Proofs.Session.Commuting
import CustomElements.Proofs.Style.Scanning
import CustomElements.Proofs.Style.Tokens
import CustomElements.Proofs.Style.Cutting
import CustomElements.Proofs.Style.Weight
import CustomElements.Proofs.Style.Reading
import CustomElements.Proofs.Style.Printing
import CustomElements.Proofs.Style.Losses
import CustomElements.Proofs.Style.Standing
import CustomElements.Proofs.Style.Pieces
import CustomElements.Proofs.Style.Rereading
import CustomElements.Proofs.Style.Roundtrip
import CustomElements.Proofs.Markup.Writing
import CustomElements.Proofs.Markup.PlainReading
import CustomElements.Proofs.Style.Isolation
import CustomElements.Proofs.Style.Sources
import CustomElements.Proofs.Style.Closing
import CustomElements.Proofs.Component.HostAttributes
import CustomElements.Proofs.Expansion.Origins
import CustomElements.Proofs.Reader.Growth
import CustomElements.Proofs.Reader.Surroundings
import CustomElements.Proofs.Reader.Tags
import CustomElements.Proofs.Reader.Contents
import CustomElements.Proofs.Reader.FlowRules
import CustomElements.Proofs.Reader.Standing
import CustomElements.Proofs.Reader.Entering
import CustomElements.Proofs.Reader.Opening
import CustomElements.Proofs.Reader.Closing
import CustomElements.Proofs.Reader.Leaving
import CustomElements.Proofs.Reader.Leaves
import CustomElements.Proofs.Reader.Runs
import CustomElements.Proofs.Reader.Texts
import CustomElements.Proofs.Reader.Elements
import CustomElements.Proofs.Reader.Rereading
import CustomElements.Proofs.Markup.Places
import CustomElements.Proofs.Markup.Classes
import CustomElements.Proofs.Markup.Slots
import CustomElements.Proofs.Component.Dependencies
import CustomElements.Proofs.Markup.Passages
import CustomElements.Proofs.Expansion.Renditions
import CustomElements.Proofs.Session.Pending
import CustomElements.Proofs.Component.Precedence
import CustomElements.Proofs.Template.Coercion
import CustomElements.Proofs.Markup.Walking
import CustomElements.Proofs.Markup.Walks
import CustomElements.Proofs.Style.Excerpts
import CustomElements.Proofs.Template.PlainData
import CustomElements.Proofs.Jinja.Data
import CustomElements.Proofs.Jinja.Piped
import CustomElements.Proofs.Jinja.AttributeFilter
