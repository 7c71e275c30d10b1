import LibraryCatalog.Files.Tree
import LibraryCatalog.Main
import LibraryCatalog.Proofs.Book.Description
import LibraryCatalog.Proofs.Book.Writing
import LibraryCatalog.Proofs.CommandLine.Answer
import LibraryCatalog.Proofs.CommandLine.Extending
import LibraryCatalog.Proofs.CommandLine.Line
import LibraryCatalog.Proofs.CommandLine.Placement
import LibraryCatalog.Proofs.CommandLine.Stages
import LibraryCatalog.Proofs.CommandLine.Writing
import LibraryCatalog.Proofs.Configuration.Place
import LibraryCatalog.Proofs.Configuration.RoundTrip
import LibraryCatalog.Proofs.Files.Directory
import LibraryCatalog.Proofs.Interchange.RoundTrip
import LibraryCatalog.Proofs.Library.Invariant
import LibraryCatalog.Proofs.Library.Address
import LibraryCatalog.Proofs.Library.Log
import LibraryCatalog.Proofs.Library.Sources
import LibraryCatalog.Proofs.Location.Language
import LibraryCatalog.Proofs.Location.Numbers
import LibraryCatalog.Proofs.Record.Concatenation
import LibraryCatalog.Proofs.Record.Offence
import LibraryCatalog.Proofs.Search.Casing
import LibraryCatalog.Proofs.Search.Joining
import LibraryCatalog.Proofs.Search.Meaning
import LibraryCatalog.Proofs.Search.OwnText
import LibraryCatalog.Proofs.Text.Sigma
import LibraryCatalog.Proofs.Search.Filling
import LibraryCatalog.Proofs.Library.Ingestion
import LibraryCatalog.Proofs.Library.Stability
import LibraryCatalog.Proofs.Library.Populating
import LibraryCatalog.Proofs.Library.Reordering
import LibraryCatalog.Proofs.CommandLine.DefaultPlace
import LibraryCatalog.Proofs.Record.Layout
import LibraryCatalog.Proofs.Location.RoundTrip
import LibraryCatalog.Proofs.Book.Number
import LibraryCatalog.Proofs.Interchange.Arrangement
import LibraryCatalog.Proofs.CommandLine.JsonOutput
import LibraryCatalog.Proofs.Library.Saturation
import LibraryCatalog.Proofs.Library.Selection
import LibraryCatalog.Proofs.Record.Resolution
