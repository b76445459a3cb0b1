import ChatServer.Basic
import ChatServer.Rooms
import ChatServer.RoomInvariant
import ChatServer.FileQueue
import ChatServer.Directory
import ChatServer.RoomRaces
import ChatServer.UploadPipeline
import ChatServer.UploadBuffers
import ChatServer.Shutdown
import ChatServer.NotifyStream
import ChatServer.CommandParsing
import ChatServer.SharedStrtok
import ChatServer.ClientReceive
import ChatServer.Deadlock
import ChatServer.MutexHolders
import ChatServer.UniqueName
import ChatServer.RoomBroadcast
import ChatServer.Lifecycle
import ChatServer.SpawnBarrier
import ChatServer.RoomRejoin
import ChatServer.Teardown
import ChatServer.TermInput
import ChatServer.ProcessCommand
import ChatServer.Handler
import ChatServer.ClientToClient
import ChatServer.ClientHandshake
