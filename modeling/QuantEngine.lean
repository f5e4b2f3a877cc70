import QuantEngine.Runs.Crossing
import QuantEngine.Runs.Representation
import QuantEngine.Runs.Construction
import QuantEngine.Runs.Trading
import QuantEngine.Runs.Replay
import QuantEngine.Pool.Calls
import QuantEngine.Engine.Outgoing
import QuantEngine.Queue.Shutdown
import QuantEngine.Book.Splicing
import QuantEngine.Runs.Ghosts
import QuantEngine.Book.Mirror
import QuantEngine.Book.Undoing
import QuantEngine.Runs.Purity
import QuantEngine.Logger.Formatting
import QuantEngine.Socket.Stream
import QuantEngine.Runs.Safety
import QuantEngine.Runs.Arrivals
import QuantEngine.Socket.Resources
import QuantEngine.Server.Capacity
import QuantEngine.Server.Retirement
import QuantEngine.Runs.Feed
import QuantEngine.Queue.Linearization
import QuantEngine.Engine.Session
import QuantEngine.Server.Streams
import QuantEngine.Runs.Standstill
import QuantEngine.ThreadUtils
import QuantEngine.Logger.Interruption
import QuantEngine.Messages
import QuantEngine.Engine.Transcript
import QuantEngine.Engine.MarketData
import QuantEngine.Socket.Ownership
import QuantEngine.Runs.Positions
