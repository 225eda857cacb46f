import BeanCatalog.Reading.Loader
import BeanCatalog.Xml.Document
import BeanCatalog.Proofs.Placeholder.Closing
import BeanCatalog.Proofs.Placeholder.Descent
import BeanCatalog.Proofs.Placeholder.Fallbacks
import BeanCatalog.Proofs.Placeholder.Joining
import BeanCatalog.Proofs.Placeholder.Modes
import BeanCatalog.Proofs.Environment.Profiles
import BeanCatalog.Proofs.Registry.AliasNames
import BeanCatalog.Proofs.Registry.GeneratedNames
import BeanCatalog.Proofs.Registry.HolderLookups
import BeanCatalog.Proofs.Registry.Lookups
import BeanCatalog.Proofs.Loading.Brackets
import BeanCatalog.Proofs.Loading.Children
import BeanCatalog.Proofs.Loading.Containment
import BeanCatalog.Proofs.Loading.Counts
import BeanCatalog.Proofs.Loading.FirstError
import BeanCatalog.Proofs.Loading.Files
import BeanCatalog.Proofs.Loading.Inheritance
import BeanCatalog.Proofs.Loading.Outcomes
import BeanCatalog.Proofs.Loading.Packages
import BeanCatalog.Proofs.Loading.PatternImports
import BeanCatalog.Proofs.Loading.Pruning
import BeanCatalog.Proofs.Loading.Respelling
import BeanCatalog.Proofs.Loading.Retention
import BeanCatalog.Proofs.Resource.PatternUrls
import BeanCatalog.Proofs.Resource.Siblings
import BeanCatalog.Proofs.Text.Tokens
