import FeedClient.Main
import FeedClient.Proofs.Text
import FeedClient.Proofs.Post.Key
import FeedClient.Proofs.NavBar
import FeedClient.Proofs.Feed
import FeedClient.Proofs.Http.Url
import FeedClient.Proofs.Http.Site
import FeedClient.Proofs.Http.Charset
import FeedClient.Proofs.Http.Form
import FeedClient.Proofs.Http.Cookie
import FeedClient.Proofs.Http.Message
import FeedClient.Proofs.Gateway.Request
import FeedClient.Proofs.Gateway.Server
import FeedClient.Proofs.Gateway.Trips
import FeedClient.Proofs.Gateway.Transcript
import FeedClient.Proofs.Gateway.Guard
import FeedClient.Proofs.Controller.Step
import FeedClient.Proofs.Controller.History
import FeedClient.Proofs.Controller.Display
import FeedClient.Proofs.Controller.Session
import FeedClient.Proofs.Controller.ReplyOrder
import FeedClient.Proofs.Controller.Protocol
import FeedClient.Proofs.Controller.Rejection
import FeedClient.Proofs.Controller.Controls
import FeedClient.Proofs.Json.Numeral
import FeedClient.Proofs.Json.Quoted
import FeedClient.Proofs.Json.Reader
import FeedClient.Proofs.Wire.RoundTrip
import FeedClient.Proofs.Gateway.Arguments
import FeedClient.Proofs.Controller.Renders
import FeedClient.Proofs.Gateway.Replies
import FeedClient.Proofs.Json.Grammar
import FeedClient.Proofs.Json.Spelling
import FeedClient.Proofs.Json.Fields
import FeedClient.Proofs.Wire.Spelling
import FeedClient.Proofs.Json.Prefix
import FeedClient.Proofs.Wire.Prefix
import FeedClient.Proofs.Controller.Alone
import FeedClient.Proofs.Program.World
import FeedClient.Proofs.Feed.Screen
import FeedClient.Proofs.Program.Client
import FeedClient.Proofs.Program.Command
import FeedClient.Proofs.Program.Session
import FeedClient.Proofs.Program.Start
import FeedClient.Proofs.Program.Choices
import FeedClient.Proofs.Post.Parts
import FeedClient.Proofs.Time.Stamp
import FeedClient.Proofs.Controller.Tags
import FeedClient.Proofs.Controller.Fetches
import FeedClient.Proofs.Feed.Lookup
import FeedClient.Proofs.NavBar.Activation
import FeedClient.Proofs.Invocation
import FeedClient.Proofs.Configuration
import FeedClient.Proofs.Time.Calendar
import FeedClient.Proofs.Time.Clock
