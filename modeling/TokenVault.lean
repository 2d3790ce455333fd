import TokenVault.Settings
import TokenVault.Token.Issuance
import TokenVault.Proofs.Base64Url
import TokenVault.Proofs.Json.Layout
import TokenVault.Proofs.Json.Literal
import TokenVault.Proofs.Json.Value
import TokenVault.Proofs.Json.Scan
import TokenVault.Proofs.Json.Read
import TokenVault.Proofs.Json.Record
import TokenVault.Proofs.Token.Claims
import TokenVault.Proofs.Token.Parsing
import TokenVault.Proofs.Token.MacAcceptance
import TokenVault.Proofs.Token.Decision
import TokenVault.Proofs.Rsa.Der
import TokenVault.Proofs.Rsa.Signature
import TokenVault.Proofs.Rsa.Uniqueness
import TokenVault.Proofs.Key
import TokenVault.Proofs.Token.RoundTrip
import TokenVault.Proofs.Token.AlgorithmBinding
import TokenVault.Proofs.Time
import TokenVault.Proofs.Token.TimeWindow
import TokenVault.Proofs.Token.Issued
import TokenVault.Proofs.Token.WireText
import TokenVault.Proofs.FileTree.Sound
import TokenVault.Proofs.FileTree.Follow
import TokenVault.Proofs.FileTree.Files
import TokenVault.Proofs.FileTree.Path
import TokenVault.Proofs.Store.Contents
import TokenVault.Proofs.Store.Steps
import TokenVault.Proofs.Store.Perform
import TokenVault.Proofs.Store.History
import TokenVault.Proofs.FileTree.Passing
import TokenVault.Proofs.FileTree.Growth
import TokenVault.Proofs.Store.Failure
import TokenVault.Proofs.Store.Atomic
import TokenVault.Proofs.Store.Interleaving
import TokenVault.Proofs.Store.Valid
import TokenVault.Proofs.Store.Serial
import TokenVault.Proofs.Store.Alone
import TokenVault.Proofs.Credential
import TokenVault.Proofs.Binary64
import TokenVault.Proofs.Json.Written
import TokenVault.Proofs.Json.Meaning
import TokenVault.Proofs.Json.Members
import TokenVault.Proofs.Token.Reading
import TokenVault.Proofs.Token.Registered
import TokenVault.Proofs.Json.Legible
import TokenVault.Proofs.Json.Positional
import TokenVault.Proofs.Json.Soundness
import TokenVault.Proofs.Store.Records
import TokenVault.Proofs.Store.Grammar
import TokenVault.Proofs.Token.Shape
import TokenVault.Proofs.Json.Interchange
import TokenVault.Proofs.Json.Disclosure
import TokenVault.Proofs.Token.Disclosure
import TokenVault.Proofs.FileTree.Alike
import TokenVault.Proofs.Store.Disclosure
import TokenVault.Proofs.Base64Url.Diagnosis
import TokenVault.Proofs.Rsa.Forms
import TokenVault.Proofs.Store.Discipline
import TokenVault.Proofs.FileTree.Named
import TokenVault.Proofs.Store.Commit
import TokenVault.Proofs.Store.Footprint
import TokenVault.Proofs.Store.Neighbours
import TokenVault.Proofs.Clock
import TokenVault.Proofs.Token.Expiry
