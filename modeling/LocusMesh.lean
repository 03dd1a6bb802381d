import LocusMesh.Fallible
import LocusMesh.Collections
import LocusMesh.Clock
import LocusMesh.HashChain
import LocusMesh.Json
import LocusMesh.JsonBytes
import LocusMesh.Base64
import LocusMesh.Sha256
import LocusMesh.Models
import LocusMesh.Canonical
import LocusMesh.Exceptions
import LocusMesh.Crypto
import LocusMesh.Policy
import LocusMesh.Attestation
import LocusMesh.LocalSigner
import LocusMesh.Admission
import LocusMesh.Demo
import LocusMesh.Verification
import LocusMesh.Building
import LocusMesh.Digests
import LocusMesh.Reordering
import LocusMesh.Splicing
import LocusMesh.Evidence
import LocusMesh.Decisions
import LocusMesh.Authority
import LocusMesh.Interval
import LocusMesh.Replay
import LocusMesh.Transition
import LocusMesh.Sharing
import LocusMesh.Instants
import LocusMesh.Text
import LocusMesh.JsonText
import LocusMesh.StrictJson
import LocusMesh.IpAddress
import LocusMesh.Quoting
import LocusMesh.Url
import LocusMesh.Opener
import LocusMesh.MeshLlm
import LocusMesh.Observation
import LocusMesh.Projection
import LocusMesh.StatusObserver
import LocusMesh.Console
import LocusMesh.Cli
import LocusMesh.Envelopes
import LocusMesh.Endpoint
import LocusMesh.StoreFaults
import LocusMesh.Yaml
import LocusMesh.Merging
import LocusMesh.Construction
import LocusMesh.Io
import LocusMesh.DuplicateKeys
import LocusMesh.BoundedInput
import LocusMesh.ManagementUrl
import LocusMesh.Contacts
import LocusMesh.StatusReport
import LocusMesh.Reporting
import LocusMesh.Selection
import LocusMesh.Running
import LocusMesh.Draining
import LocusMesh.Unclassified
import LocusMesh.Harmless
import LocusMesh.PolicyInput
import LocusMesh.JsonReading
import LocusMesh.ReadBack
import LocusMesh.Validation
import LocusMesh.Files
import LocusMesh.Loading
import LocusMesh.Printed
import LocusMesh.Linearization
import LocusMesh.Registry
import LocusMesh.Invocations
import LocusMesh.Agreement
import LocusMesh.Hmac
import LocusMesh.Binding
import LocusMesh.Redaction
import LocusMesh.Lifecycle
import LocusMesh.Tampering
import LocusMesh.Trees
import LocusMesh.Unfolding
import LocusMesh.PlainDocuments
import LocusMesh.PolicyFiles
