import SocialNetwork.Lib.Transition
import SocialNetwork.Server.Loop
import SocialNetwork.Server.Parsing
import SocialNetwork.Lib.Lines
import SocialNetwork.Server.Framing
import SocialNetwork.Server.Effect
import SocialNetwork.Server.Descriptors
import SocialNetwork.Server.Connections
import SocialNetwork.Session.Identity
import SocialNetwork.Server.Writes
import SocialNetwork.Friends.Consent
import SocialNetwork.Friends.Symmetry
import SocialNetwork.Friends.FriendType
import SocialNetwork.Messaging.OpenConversation
import SocialNetwork.Lib.Rooms
import SocialNetwork.Messaging.Membership
import SocialNetwork.Messaging.Numbering
import SocialNetwork.Messaging.Delivery
import SocialNetwork.Messaging.Provenance
import SocialNetwork.Messaging.PrivateChat
import SocialNetwork.Messaging.OneToOne
import SocialNetwork.Authority.Ownership
import SocialNetwork.Authority.Overflow
import SocialNetwork.Messaging.Aliasing
import SocialNetwork.Server.Integrity
import SocialNetwork.Messaging.Company
import SocialNetwork.Messaging.GroupCreation
import SocialNetwork.Messaging.Listing
import SocialNetwork.Server.Completion
import SocialNetwork.Session.Accounts
import SocialNetwork.Server.Texts
import SocialNetwork.Server.Feed
import SocialNetwork.Server.Chronology
import SocialNetwork.Server.Replies
import SocialNetwork.Privacy.Reads
import SocialNetwork.Privacy.Feeds
import SocialNetwork.Client.NetworkClient
import SocialNetwork.Lib.Decimal
import SocialNetwork.Lib.Tokens
import SocialNetwork.Lib.Utf8
import SocialNetwork.Client.MessagesWindow
import SocialNetwork.Client.CreatePost
import SocialNetwork.Client.Forms
import SocialNetwork.Client.FeedWindows
import SocialNetwork.Client.FriendLists
import SocialNetwork.Client.ConversationList
import SocialNetwork.Client.Pairing
import SocialNetwork.Client.Selection
import SocialNetwork.Client.ListSafety
import SocialNetwork.Client.Console
import SocialNetwork.Lib.Simulation
import SocialNetwork.Server.Interruption
import SocialNetwork.Server.Restart
import SocialNetwork.Friends.Repair
import SocialNetwork.Messaging.Deserted
import SocialNetwork.Lib.Footprint
import SocialNetwork.Network.Growth
import SocialNetwork.Network.Independence
import SocialNetwork.Network.Hidden
import SocialNetwork.Network.Settings
import SocialNetwork.Network.Unheard
import SocialNetwork.Client.Language
import SocialNetwork.Client.OldLists
import SocialNetwork.Lib.Turns
import SocialNetwork.Server.Turns
import SocialNetwork.Server.LogFile
import SocialNetwork.Client.Windows
import SocialNetwork.Client.MessagesView
