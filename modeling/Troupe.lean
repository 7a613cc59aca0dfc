import Troupe.Actor.Floor
import Troupe.Config.Render
import Troupe.Main
import Troupe.Net.Publisher
import Troupe.Net.Service
import Troupe.Net.Subscriber
import Troupe.Proofs.Actor.Serializability
import Troupe.Proofs.Promise.History
import Troupe.Proofs.System.Threads
import Troupe.Queue
import Troupe.Stock.Recipe
import Troupe.Value.Debug
import Troupe.Proofs.Promise.Ahead
import Troupe.Proofs.Promise.Adoption
import Troupe.Proofs.Promise.Chain
import Troupe.Proofs.System.Weaving
import Troupe.Proofs.Net.Session
import Troupe.Proofs.Codec
import Troupe.Proofs.Net.Frame
import Troupe.Proofs.Net.Request
import Troupe.Proofs.Net.Exchange
import Troupe.Proofs.Net.Delivery
import Troupe.Proofs.Net.RemoteCall
import Troupe.Proofs.MessagePack.RoundTrip
import Troupe.Proofs.Json.RoundTrip
import Troupe.Proofs.Net.Stream
import Troupe.Proofs.Net.Canonical
import Troupe.Proofs.Value.Copy
import Troupe.Proofs.Scheduler.Shutdown
import Troupe.Proofs.System.Group
import Troupe.Proofs.Net.Fanout
import Troupe.Proofs.Net.Feed
import Troupe.Proofs.Net.Serving
import Troupe.Proofs.Yaml.Place
import Troupe.Proofs.Yaml.Plain
import Troupe.Proofs.Numeral
import Troupe.Proofs.Yaml.Quoted
import Troupe.Proofs.Yaml.Literal
import Troupe.Proofs.Yaml.Lexing
import Troupe.Proofs.Yaml.Words
import Troupe.Proofs.Yaml.Keys
import Troupe.Proofs.Yaml.Layout
import Troupe.Proofs.Yaml.Scalar
import Troupe.Proofs.Yaml.RoundTrip
import Troupe.Proofs.Net.Truncation
import Troupe.Proofs.Host.Addressing
import Troupe.Proofs.Net.Malformed
import Troupe.Proofs.Promise.Relay
import Troupe.Proofs.System.Route
import Troupe.Proofs.System.Nested
import Troupe.Proofs.System.Episode
import Troupe.Proofs.MessagePack.Spelling
import Troupe.Proofs.Entries
import Troupe.Proofs.MessagePack.Reading
import Troupe.Proofs.MessagePack.Canonical
import Troupe.Proofs.Value.Equality
import Troupe.Proofs.Value.Integer
import Troupe.Proofs.Queue
import Troupe.Proofs.Value.Walk
import Troupe.Proofs.Value.Text
import Troupe.Proofs.Actor.Arguments
import Troupe.Proofs.Config
import Troupe.Proofs.Host.Complete
import Troupe.Proofs.Value.List
import Troupe.Proofs.Account
import Troupe.Proofs.Net.Header
