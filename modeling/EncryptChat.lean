import EncryptChat.Transition
import EncryptChat.PyTime
import EncryptChat.PyQueue
import EncryptChat.Delivery
import EncryptChat.Cleanup
import EncryptChat.OfflineDrain
import EncryptChat.IdentityLimit
import EncryptChat.MalformedInput
import EncryptChat.PeerIsolation
import EncryptChat.LiveQueues
import EncryptChat.ReceiptsAfterReady
import EncryptChat.AuthFrame
import EncryptChat.RefreshRotation
import EncryptChat.BoundAccounts
import EncryptChat.ReceiptOrder
import EncryptChat.AccountMessages
import EncryptChat.PasswordGuesses
import EncryptChat.LoginAnswers
import EncryptChat.PayloadTransit
import EncryptChat.InboundGrammar
import EncryptChat.DropReasons
import EncryptChat.NoSilence
import EncryptChat.AuthDeadline
import EncryptChat.RegisteredPassword
import EncryptChat.OfflineLists
import EncryptChat.FailureWindow
import EncryptChat.FrameRate
import EncryptChat.IdentifierPattern
import EncryptChat.LoginWork
import EncryptChat.RefreshCookie
import EncryptChat.AdvertisedPolicy
import EncryptChat.ErrorCorrelation
import EncryptChat.WireAgreement
import EncryptChat.FlushAccounting
import EncryptChat.AuditTrail
import EncryptChat.SessionOrigins
import EncryptChat.DeliveredMessages
import EncryptChat.AccountAuthority
import EncryptChat.MailboxService
import EncryptChat.AuthTransactions
import EncryptChat.AuthCompletion
