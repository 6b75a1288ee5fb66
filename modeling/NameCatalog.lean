import NameCatalog.Json.Reader
import NameCatalog.Main
import NameCatalog.Proofs.Catalog.ClassKey
import NameCatalog.Proofs.Catalog.Contributions
import NameCatalog.Proofs.Catalog.Duplicates
import NameCatalog.Proofs.Catalog.LayoutFiles
import NameCatalog.Proofs.Catalog.Notices
import NameCatalog.Proofs.Catalog.Readings
import NameCatalog.Proofs.CommandLine.BrokenListings
import NameCatalog.Proofs.CommandLine.Endings
import NameCatalog.Proofs.CommandLine.Independence
import NameCatalog.Proofs.CommandLine.LogLevels
import NameCatalog.Proofs.CommandLine.Renders
import NameCatalog.Proofs.CommandLine.TextListings
import NameCatalog.Proofs.Document.Writing
import NameCatalog.Proofs.Name.Flaws
import NameCatalog.Proofs.Name.Messages
import NameCatalog.Proofs.Name.Replacement
import NameCatalog.Proofs.Session.Runs
import NameCatalog.Proofs.Settings.JsonLists
