import Ogrenet.Activity.Touches
import Ogrenet.Classification
import Ogrenet.Client.HTTP3
import Ogrenet.Client.Bodies
import Ogrenet.Endpoint.RoundTrip
import Ogrenet.Engine.Barrier
import Ogrenet.Engine.Dials
import Ogrenet.Engine.Finality
import Ogrenet.Engine.Holders
import Ogrenet.Epoll.Closed
import Ogrenet.Epoll.Wait
import Ogrenet.Iocp.Close
import Ogrenet.Observer.Account
import Ogrenet.Quota.Budget
import Ogrenet.Session.Callbacks.Ordered
import Ogrenet.Session.Cuts
import Ogrenet.Session.Truncation
import Ogrenet.Session.Delivery
import Ogrenet.Session.Conservation
import Ogrenet.Session.EndToEnd.Conveyed
import Ogrenet.Session.Frames.Memory
import Ogrenet.Session.Stream.ReadClosed
import Ogrenet.Session.Ownership.Owned
import Ogrenet.Session.SendErrors
import Ogrenet.TypedErrors
import Ogrenet.Wire.Grammar
import Ogrenet.Wire.WebSocket
import Ogrenet.Session.SendGate
import Ogrenet.Session.Arbiter
