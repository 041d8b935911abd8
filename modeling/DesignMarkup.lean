import DesignMarkup.Main
import DesignMarkup.Proofs.ClassName
import DesignMarkup.Proofs.Layout.Words
import DesignMarkup.Proofs.Html.Escape
import DesignMarkup.Proofs.Html.RoundTrip
import DesignMarkup.Proofs.Conversion.Depiction
import DesignMarkup.Proofs.Conversion.Journal
import DesignMarkup.Proofs.Conversion.Session
import DesignMarkup.Proofs.Conversion.Catalogue
import DesignMarkup.Proofs.Number.Bounded
import DesignMarkup.Proofs.Conversion.Failure
import DesignMarkup.Proofs.Pipeline
import DesignMarkup.Proofs.Conversion.Abort
import DesignMarkup.Proofs.Design.Schema
import DesignMarkup.Proofs.Files.Store
import DesignMarkup.Proofs.Files.Place
import DesignMarkup.Proofs.Files.Writing
import DesignMarkup.Proofs.Page.Output
import DesignMarkup.Proofs.Command.Phases
import DesignMarkup.Proofs.Conversion.Shared
import DesignMarkup.Proofs.Conversion.Renumbering
import DesignMarkup.Proofs.Style.Values
import DesignMarkup.Proofs.Style.Scanner
import DesignMarkup.Proofs.Conversion.Sheet
import DesignMarkup.Proofs.Command.Fetch
import DesignMarkup.Proofs.Page.FileName
import DesignMarkup.Proofs.Page.Document
import DesignMarkup.Proofs.Command.Placement
import DesignMarkup.Proofs.Command.Children
import DesignMarkup.Proofs.Command.Interrupted
import DesignMarkup.Proofs.Files.Persistence
import DesignMarkup.Proofs.Page.Opening
import DesignMarkup.Proofs.Trigger
import DesignMarkup.Proofs.Command.Freshness
import DesignMarkup.Proofs.Command.Observer
import DesignMarkup.Proofs.Command.Watch
import DesignMarkup.Proofs.Command.Answers
import DesignMarkup.Proofs.Layout.Nearest
import DesignMarkup.Proofs.Number.Exact
import DesignMarkup.Proofs.Layout.Spacing
import DesignMarkup.Proofs.Layout.Compatible
import DesignMarkup.Proofs.Conversion.ClassLists
import DesignMarkup.Proofs.Number.HalfUp
import DesignMarkup.Proofs.Lookup.Order
import DesignMarkup.Proofs.Components
import DesignMarkup.Proofs.Conversion.Indentation
import DesignMarkup.Proofs.Page.NameSearch
import DesignMarkup.Proofs.Html.Stretches
import DesignMarkup.Proofs.Page.Parts
import DesignMarkup.Proofs.Page.LinkIndex
import DesignMarkup.Proofs.Page.Reference
import DesignMarkup.Proofs.Command.Links
import DesignMarkup.Proofs.Page.Editions
import DesignMarkup.Proofs.Html.Entities
import DesignMarkup.Proofs.Style.History
import DesignMarkup.Proofs.Style.Appearance
import DesignMarkup.Proofs.Config
import DesignMarkup.Proofs.Layout.Union
import DesignMarkup.Proofs.Page.Slug
import DesignMarkup.Proofs.Number.Unique
import DesignMarkup.Proofs.Number.Shortest
import DesignMarkup.Proofs.Number.Plain
