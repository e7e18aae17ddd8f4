import FacesHttp3.Lib.Exec
import FacesHttp3.QueryString
import FacesHttp3.HeaderGrammar
import FacesHttp3.Chunks.Station
import FacesHttp3.Chunks.Separation
import FacesHttp3.Chunks.Starvation
import FacesHttp3.Chunks.Atomic
import FacesHttp3.Sessions.Bindings
import FacesHttp3.InFlight
import FacesHttp3.Router.GlobalMiddlewares
import FacesHttp3.EntryRace
import FacesHttp3.Listeners
import FacesHttp3.Upload.Conservation
import FacesHttp3.FileWriter.Callbacks
import FacesHttp3.FileWriter.Pool
import FacesHttp3.FileWriter.Outcome
import FacesHttp3.Dispatch.Laws
import FacesHttp3.Dispatch.Independence
import FacesHttp3.Dispatch.Lifecycle
import FacesHttp3.SendLoop.EndOfStream
import FacesHttp3.SendLoop.Retry
import FacesHttp3.SendLoop.PanicFree
import FacesHttp3.SendLoop.Opening
import FacesHttp3.Server.Gate
import FacesHttp3.Server.Verdicts
import FacesHttp3.Server.Rejections
import FacesHttp3.Server.HandlerChain
import FacesHttp3.Server.Responses
import FacesHttp3.Server.Storage
import FacesHttp3.Server.Accounting
import FacesHttp3.Server.Fairness
import FacesHttp3.Server.FileOutcome
import FacesHttp3.Retry.Validation
import FacesHttp3.Retry.Connections
