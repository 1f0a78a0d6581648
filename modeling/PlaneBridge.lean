import PlaneBridge.Catalog.Api
import PlaneBridge.Catalog.Application
import PlaneBridge.Catalog.KeyManager
import PlaneBridge.Catalog.Keyed
import PlaneBridge.Catalog.Listing
import PlaneBridge.Catalog.Policy
import PlaneBridge.Catalog.Setting
import PlaneBridge.Catalog.Snapshot
import PlaneBridge.Catalog.Subscription
import PlaneBridge.CommandLine.Command
import PlaneBridge.CommandLine.Options
import PlaneBridge.CommandLine.Run
import PlaneBridge.Config.Adapter
import PlaneBridge.Config.ControlPlane
import PlaneBridge.Config.Enforcer
import PlaneBridge.Config.Load
import PlaneBridge.Config.Marshal
import PlaneBridge.Config.Section
import PlaneBridge.Config.Security
import PlaneBridge.Config.Service
import PlaneBridge.Config.Throttling
import PlaneBridge.Delivery.Attempt
import PlaneBridge.Delivery.Authorization
import PlaneBridge.Delivery.Client
import PlaneBridge.Delivery.Notifier
import PlaneBridge.Delivery.Request
import PlaneBridge.Delivery.Revision
import PlaneBridge.Disk
import PlaneBridge.Enforcer.Config
import PlaneBridge.Enforcer.Security
import PlaneBridge.Enforcer.Throttling
import PlaneBridge.Entries
import PlaneBridge.Json.Key
import PlaneBridge.Json.Node
import PlaneBridge.Json.Number
import PlaneBridge.Json.Printer
import PlaneBridge.Json.Reader
import PlaneBridge.Json.Text
import PlaneBridge.Json.Value
import PlaneBridge.Main
import PlaneBridge.Notice
import PlaneBridge.Number.Binary64
import PlaneBridge.Number.Decimal
import PlaneBridge.Number.Shortest
import PlaneBridge.Proofs.Catalog.AllOrNothing
import PlaneBridge.Proofs.Catalog.Batch
import PlaneBridge.Proofs.Catalog.CanonicalSettings
import PlaneBridge.Proofs.Catalog.Configuration
import PlaneBridge.Proofs.Catalog.Domains
import PlaneBridge.Proofs.Catalog.Elements
import PlaneBridge.Proofs.Catalog.KeyManager
import PlaneBridge.Proofs.Catalog.Keyed
import PlaneBridge.Proofs.Catalog.LastWins
import PlaneBridge.Proofs.Catalog.Lossless
import PlaneBridge.Proofs.Catalog.Snapshot
import PlaneBridge.Proofs.Catalog.Spellings
import PlaneBridge.Proofs.CommandLine.Notify
import PlaneBridge.Proofs.CommandLine.Output
import PlaneBridge.Proofs.CommandLine.Words
import PlaneBridge.Proofs.Config.Defaults
import PlaneBridge.Proofs.Config.Document
import PlaneBridge.Proofs.Config.Load
import PlaneBridge.Proofs.Config.Marshal
import PlaneBridge.Proofs.Config.Overridden
import PlaneBridge.Proofs.Config.Wire
import PlaneBridge.Proofs.Delivery.Attempt
import PlaneBridge.Proofs.Delivery.Authorization
import PlaneBridge.Proofs.Delivery.Body
import PlaneBridge.Proofs.Delivery.Concurrent
import PlaneBridge.Proofs.Delivery.Credentials
import PlaneBridge.Proofs.Delivery.Request
import PlaneBridge.Proofs.Delivery.Session
import PlaneBridge.Proofs.Delivery.Skip
import PlaneBridge.Proofs.Delivery.Target
import PlaneBridge.Proofs.Entries
import PlaneBridge.Proofs.Json.Alike
import PlaneBridge.Proofs.Json.Canonical
import PlaneBridge.Proofs.Json.FreeForm
import PlaneBridge.Proofs.Json.Layout
import PlaneBridge.Proofs.Json.Number
import PlaneBridge.Proofs.Json.Path
import PlaneBridge.Proofs.Json.Printer
import PlaneBridge.Proofs.Json.Reader
import PlaneBridge.Proofs.Json.Spelled
import PlaneBridge.Proofs.Json.Text
import PlaneBridge.Proofs.Messages
import PlaneBridge.Proofs.Number.Decimal
import PlaneBridge.Proofs.Shape.Decoded
import PlaneBridge.Proofs.Shape.Defaults
import PlaneBridge.Proofs.Shape.Given
import PlaneBridge.Proofs.Shape.Json
import PlaneBridge.Proofs.Shape.Order
import PlaneBridge.Proofs.Shape.Path
import PlaneBridge.Proofs.Shape.Places
import PlaneBridge.Proofs.Shape.Refusal
import PlaneBridge.Proofs.Shape.Respelled
import PlaneBridge.Proofs.Shape.Spelled
import PlaneBridge.Proofs.Shape.Yaml
import PlaneBridge.Proofs.Tenant
import PlaneBridge.Proofs.Tenant.Generations
import PlaneBridge.Proofs.Text.Base64
import PlaneBridge.Proofs.Text.Base64.Readable
import PlaneBridge.Proofs.Text.LowerCase
import PlaneBridge.Proofs.Text.Utf8
import PlaneBridge.Proofs.Text.Utf8Order
import PlaneBridge.Proofs.Trust.Pem
import PlaneBridge.Proofs.Trust.Sections
import PlaneBridge.Proofs.Trust.Store
import PlaneBridge.Proofs.Yaml.Path
import PlaneBridge.Shape.Basic
import PlaneBridge.Shape.Json
import PlaneBridge.Shape.Yaml
import PlaneBridge.Tenant
import PlaneBridge.Text.Base64
import PlaneBridge.Text.Printable
import PlaneBridge.Text.Quoted
import PlaneBridge.Text.Utf8
import PlaneBridge.Text.Whitespace
import PlaneBridge.Trust.Certificate
import PlaneBridge.Trust.Der
import PlaneBridge.Trust.Pem
import PlaneBridge.Trust.Store
import PlaneBridge.Yaml.Cell
import PlaneBridge.Yaml.Node
import PlaneBridge.Yaml.Plain
import PlaneBridge.Yaml.Scalar
import PlaneBridge.Yaml.Token
import PlaneBridge.Yaml.Tokens
