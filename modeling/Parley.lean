import Parley.Asset
import Parley.Binary
import Parley.Course
import Parley.Decimal
import Parley.Dialogue
import Parley.Dispatch
import Parley.Engine
import Parley.Error
import Parley.Event
import Parley.Faulty
import Parley.Function
import Parley.History
import Parley.Ink.Arithmetic
import Parley.Ink.Content
import Parley.Ink.Document
import Parley.Ink.Interpreter
import Parley.Ink.Lists
import Parley.Ink.Machine
import Parley.Ink.Output
import Parley.Ink.Path
import Parley.Ink.Place
import Parley.Ink.Runtime
import Parley.Ink.Save
import Parley.Ink.Source
import Parley.Ink.State
import Parley.Ink.Story
import Parley.Ink.Tale
import Parley.Json.Basic
import Parley.Json.Dialogue
import Parley.Json.Fault
import Parley.Json.Number
import Parley.Json.Reader
import Parley.Json.Record
import Parley.LoadOptions
import Parley.Main
import Parley.Player.Arguments
import Parley.Player.Command
import Parley.Player.Directory
import Parley.Player.Play
import Parley.Player.Terminal
import Parley.Program
import Parley.Proofs.Abreast
import Parley.Proofs.Advance
import Parley.Proofs.Asset
import Parley.Proofs.Binary
import Parley.Proofs.Binding
import Parley.Proofs.Bound
import Parley.Proofs.Change
import Parley.Proofs.Choices
import Parley.Proofs.Content
import Parley.Proofs.Continuation
import Parley.Proofs.Continuity
import Parley.Proofs.Course
import Parley.Proofs.Decimal
import Parley.Proofs.Delivery
import Parley.Proofs.Dispatch
import Parley.Proofs.Drive
import Parley.Proofs.Emission
import Parley.Proofs.Faulty
import Parley.Proofs.Function
import Parley.Proofs.Groundwork
import Parley.Proofs.History.Delivery
import Parley.Proofs.History.Lawful
import Parley.Proofs.History.Prompt
import Parley.Proofs.History.Stops
import Parley.Proofs.History.TearDown
import Parley.Proofs.Ink.Interpreter
import Parley.Proofs.Ink.Lawful
import Parley.Proofs.Ink.Rebinding
import Parley.Proofs.Ink.Unbound
import Parley.Proofs.Json.Laws
import Parley.Proofs.Json.Layout
import Parley.Proofs.Json.Local
import Parley.Proofs.Json.Number
import Parley.Proofs.Json.Reader
import Parley.Proofs.Json.Skip
import Parley.Proofs.Json.Yields
import Parley.Proofs.Library
import Parley.Proofs.Maintain
import Parley.Proofs.Oblivious
import Parley.Proofs.Observers
import Parley.Proofs.OnlyStory
import Parley.Proofs.Outcome
import Parley.Proofs.Passive
import Parley.Proofs.Player.Command
import Parley.Proofs.Player.Direct
import Parley.Proofs.Player.Ending
import Parley.Proofs.Player.Obey
import Parley.Proofs.Player.Play
import Parley.Proofs.Player.Session
import Parley.Proofs.Player.Settle
import Parley.Proofs.Player.Tape
import Parley.Proofs.Presence
import Parley.Proofs.Promise
import Parley.Proofs.Refusal
import Parley.Proofs.Registry
import Parley.Proofs.Request
import Parley.Proofs.Reset
import Parley.Proofs.Restore
import Parley.Proofs.Run
import Parley.Proofs.Save
import Parley.Proofs.Script.Effects
import Parley.Proofs.Script.Reach
import Parley.Proofs.Script.State
import Parley.Proofs.Script.Steps
import Parley.Proofs.Script.Story
import Parley.Proofs.Session
import Parley.Proofs.Sound
import Parley.Proofs.Stage
import Parley.Proofs.Status
import Parley.Proofs.Stop
import Parley.Proofs.Subscriptions
import Parley.Proofs.Sweep
import Parley.Proofs.Table
import Parley.Proofs.TearDown
import Parley.Proofs.Text
import Parley.Proofs.Value
import Parley.Proofs.Variables
import Parley.Proofs.Visits
import Parley.Registry
import Parley.Runner
import Parley.Script.State
import Parley.Script.Story
import Parley.Session.Snapshot
import Parley.Session.Step
import Parley.Session.Variables
import Parley.Single
import Parley.Table
import Parley.Text.Blank
import Parley.Text.Invisible
import Parley.Text.Lines
import Parley.Text.Quoted
import Parley.Value
import Parley.World
