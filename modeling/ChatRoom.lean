import ChatRoom.Main
import ChatRoom.Reception
import ChatRoom.Proofs.Room.Failures
import ChatRoom.Proofs.Room.Privacy
import ChatRoom.Proofs.Server.Carriers
import ChatRoom.Proofs.Server.Lines
import ChatRoom.Proofs.Wire.Validity
import ChatRoom.Proofs.Server.Frame
import ChatRoom.Proofs.Server.Containment
import ChatRoom.Proofs.Groups
import ChatRoom.Proofs.Server.Greeting
import ChatRoom.Proofs.Server.Sessions
import ChatRoom.Proofs.Room.PrivateRouting
import ChatRoom.Proofs.Room.Interleavings
import ChatRoom.Proofs.Wire.Limit
import ChatRoom.Proofs.Room.Addressing
import ChatRoom.Proofs.Server.Sayings
import ChatRoom.Proofs.Room.Confirmations
import ChatRoom.Proofs.Log.Appending
import ChatRoom.Proofs.Session
import ChatRoom.Proofs.Server.Listeners
