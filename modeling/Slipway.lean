import Slipway.Archive
import Slipway.Binary64.Basic
import Slipway.Binary64.Fixed
import Slipway.Binary64.Reading
import Slipway.Binary64.Shortest
import Slipway.Calendar.Basic
import Slipway.Calendar.Iso
import Slipway.Calendar.Lenient
import Slipway.Catalog.Dex
import Slipway.Catalog.Gitea
import Slipway.Catalog.Kafka
import Slipway.Catalog.Mongo
import Slipway.Catalog.Pulsar
import Slipway.Catalog.Redis
import Slipway.Catalog.Service
import Slipway.Clock
import Slipway.Command
import Slipway.Condition
import Slipway.Container
import Slipway.Datum.Basic
import Slipway.Datum.Shown
import Slipway.Deadline.Basic
import Slipway.Deadline.Forest
import Slipway.Dump
import Slipway.Engine.Adapter
import Slipway.Engine.Address
import Slipway.Engine.Attributes
import Slipway.Engine.Endpoint
import Slipway.Engine.Request
import Slipway.Engine.Script
import Slipway.Engine.Session
import Slipway.Engine.StartTime
import Slipway.Fault
import Slipway.Handle
import Slipway.Injection
import Slipway.Issue
import Slipway.Json.Basic
import Slipway.Json.Marked
import Slipway.Json.Printer
import Slipway.Json.Reader
import Slipway.Launch.Console
import Slipway.Launch.Launcher
import Slipway.Launch.PlanFile
import Slipway.Launch.Report
import Slipway.Launch.Script
import Slipway.Lifecycle
import Slipway.Main
import Slipway.Outcome
import Slipway.Plan
import Slipway.Port
import Slipway.Proofs.Archive
import Slipway.Proofs.Calendar.Iso
import Slipway.Proofs.Calendar.Order
import Slipway.Proofs.Catalog.Dex
import Slipway.Proofs.Catalog.Gitea
import Slipway.Proofs.Clock
import Slipway.Proofs.Condition
import Slipway.Proofs.Deadline
import Slipway.Proofs.Engine.Acts
import Slipway.Proofs.Engine.Attributes
import Slipway.Proofs.Engine.Creation
import Slipway.Proofs.Engine.Delivery
import Slipway.Proofs.Engine.Publication
import Slipway.Proofs.Engine.Refusals
import Slipway.Proofs.Engine.Session
import Slipway.Proofs.Engine.StartTime
import Slipway.Proofs.Forest
import Slipway.Proofs.Injection
import Slipway.Proofs.Injection.Agenda
import Slipway.Proofs.Injection.Checked
import Slipway.Proofs.Injection.Completion
import Slipway.Proofs.Injection.Naming
import Slipway.Proofs.Injection.Order
import Slipway.Proofs.Json
import Slipway.Proofs.Launch.Ending
import Slipway.Proofs.Launch.Release
import Slipway.Proofs.Lifecycle.Chronicle
import Slipway.Proofs.Lifecycle.Cleanup
import Slipway.Proofs.Lifecycle.Closing
import Slipway.Proofs.Lifecycle.Course
import Slipway.Proofs.Lifecycle.Heedless
import Slipway.Proofs.Lifecycle.Isolation
import Slipway.Proofs.Lifecycle.Legs
import Slipway.Proofs.Lifecycle.Pace
import Slipway.Proofs.Lifecycle.Patience
import Slipway.Proofs.Lifecycle.Punctual
import Slipway.Proofs.Lifecycle.Raising
import Slipway.Proofs.Lifecycle.Removal
import Slipway.Proofs.Lifecycle.Setup
import Slipway.Proofs.Lifecycle.Typed
import Slipway.Proofs.Lifecycle.Waiting
import Slipway.Proofs.Output
import Slipway.Proofs.Port
import Slipway.Proofs.Readiness.Asking
import Slipway.Proofs.Readiness.Conjunction
import Slipway.Proofs.Readiness.Foresight
import Slipway.Proofs.Readiness.Healthcheck
import Slipway.Proofs.Readiness.Leaves
import Slipway.Proofs.Readiness.Looks
import Slipway.Proofs.Readiness.Patience
import Slipway.Proofs.Readiness.Polling
import Slipway.Proofs.Readiness.Precedence
import Slipway.Proofs.Readiness.Prompt
import Slipway.Proofs.Readiness.Punctual
import Slipway.Proofs.Readiness.Reading
import Slipway.Proofs.Readiness.Target
import Slipway.Proofs.Readiness.Unmet
import Slipway.Proofs.Rendering
import Slipway.Proofs.Scanner
import Slipway.Proofs.Sleep
import Slipway.Proofs.Text.Cut
import Slipway.Proofs.Text.Digit
import Slipway.Proofs.Text.Integer
import Slipway.Proofs.Text.Internet
import Slipway.Proofs.Text.Quoted
import Slipway.Proofs.Text.Shell
import Slipway.Proofs.Text.Url
import Slipway.Proofs.Text.Utf8
import Slipway.Proofs.Validation.Change
import Slipway.Proofs.Validation.Condition
import Slipway.Proofs.Validation.Image
import Slipway.Proofs.Validation.Plan
import Slipway.Proofs.Validation.Restoring
import Slipway.Proofs.Validation.Spec
import Slipway.Proofs.World.Act
import Slipway.Proofs.World.Events
import Slipway.Proofs.World.Interleaving
import Slipway.Proofs.World.Pace
import Slipway.Readiness.Basic
import Slipway.Readiness.Delay
import Slipway.Readiness.Evaluation
import Slipway.Readiness.Group
import Slipway.Readiness.Health
import Slipway.Readiness.Http
import Slipway.Readiness.Log
import Slipway.Rendering
import Slipway.Scanner
import Slipway.Settings.Basic
import Slipway.Settings.EnvFile
import Slipway.Settings.Environment
import Slipway.Severity
import Slipway.Shorthand
import Slipway.Spec
import Slipway.Text.Base64
import Slipway.Text.Blank
import Slipway.Text.Cut
import Slipway.Text.Digit
import Slipway.Text.Integer
import Slipway.Text.Internet
import Slipway.Text.Lowercase
import Slipway.Text.Path
import Slipway.Text.Printable
import Slipway.Text.Quoted
import Slipway.Text.Shell
import Slipway.Text.Url
import Slipway.Text.Utf8
import Slipway.Validation.Condition
import Slipway.Validation.Record
import Slipway.Validation.Scalar
import Slipway.Validation.Spec
import Slipway.World.Act
import Slipway.World.Basic
import Slipway.World.Report
import Slipway.World.Script
import Slipway.World.Trace
import Slipway.Yaml.Cursor
import Slipway.Yaml.Document
import Slipway.Yaml.Lexer
import Slipway.Yaml.Node
import Slipway.Yaml.Scalar
import Slipway.Yaml.Tag
import Slipway.Yaml.Token
import Slipway.Yaml.Value
