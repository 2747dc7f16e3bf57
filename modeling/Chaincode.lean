import Chaincode.Main
import Chaincode.Proofs.Session.LockStep
import Chaincode.Proofs.Session.FailedReply
import Chaincode.Proofs.Session.Progress
import Chaincode.Proofs.Conversation.Echo
import Chaincode.Proofs.Conversation.EchoLimit
import Chaincode.Proofs.Server.Shutdown
import Chaincode.Proofs.Server.Stopping
import Chaincode.Proofs.Loopback.Faithful
import Chaincode.Proofs.CommandLine.Settings
import Chaincode.Proofs.Message.Announcement
