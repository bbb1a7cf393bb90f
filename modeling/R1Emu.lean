import R1Emu.Lib.Transition
import R1Emu.Lib.Bytes
import R1Emu.Lib.Stage
import R1Emu.Server.Router
import R1Emu.Server.Cluster
import R1Emu.Server.RouterOrdering
import R1Emu.Server.RouterReady
import R1Emu.Server.Worker
import R1Emu.Server.WorkerSplit
import R1Emu.Server.WorkerDispatch
import R1Emu.Server.WorkerReply
import R1Emu.Server.Monitor
import R1Emu.Packet.Stream
import R1Emu.Property
import R1Emu.PropertyTable
import R1Emu.Actor.Item
import R1Emu.Actor.ItemPacket
import R1Emu.Actor.ItemFraming
import R1Emu.Actor.ItemRoundTrip
import R1Emu.Commander.InventoryIndex
import R1Emu.Commander.Ownership
import R1Emu.PropertyLayout
import R1Emu.Actor.ItemLayout
import R1Emu.Commander.InventoryPacket
import R1Emu.Actor.ItemClientPacket
import R1Emu.Commander.PacketSizes
import R1Emu.Commander.InventoryLayout
import R1Emu.Commander.InventoryDecoding
import R1Emu.Packet.Fields
import R1Emu.Commander.EquipmentRoundTrip
import R1Emu.Game.CommanderPacket
import R1Emu.Game.AccountPacket
import R1Emu.Lib.KeyValue
import R1Emu.Storage.Db
import R1Emu.Storage.DbMap
import R1Emu.Storage.DbClient
import R1Emu.Game.Loading
import R1Emu.Game.Equipment
import R1Emu.Handler.ErrorLaw
import R1Emu.Handler.ErrorDefects
import R1Emu.Game.Redis
import R1Emu.Handler.SessionRun
import R1Emu.Handler.SettledSessions
import R1Emu.Handler.OneSession
import R1Emu.Handler.CommanderSlots
import R1Emu.Handler.LoginWindow
import R1Emu.Handler.Wardrobe
import R1Emu.Lib.CursorList
import R1Emu.Zone.ProximityGraph
import R1Emu.Zone.GraphSymmetry
import R1Emu.Zone.UpdatePosition
import R1Emu.Zone.EventHandler
import R1Emu.Zone.Visibility
import R1Emu.Zone.Movement
import R1Emu.Zone.Quiescence
import R1Emu.Zone.ItemInventoryList
import R1Emu.Zone.InventoryFraming
import R1Emu.Game.CommanderList
import R1Emu.Zone.NodeRemoval
import R1Emu.Storage.DbAtomic
import R1Emu.Zone.ItemEquipList
import R1Emu.Zone.BagIndex
import R1Emu.Handler.ChatBounds
import R1Emu.Lib.CFormat
import R1Emu.Lib.Command
import R1Emu.Lib.Words
import R1Emu.Utils.StrSplit
import R1Emu.Utils.StrGetLine
import R1Emu.Game.RedisText
import R1Emu.Game.SessionKey
import R1Emu.Game.HashKeys
import R1Emu.Handler.NameBounds
import R1Emu.Handler.NameReads
import R1Emu.Zone.Disconnect
import R1Emu.Zone.AdminCmd
import R1Emu.Zone.AdminArguments
import R1Emu.Zone.SavedSession
import R1Emu.Game.Position
import R1Emu.Zone.RangeQuery
import R1Emu.Handler.ItemDelete
import R1Emu.Commander.Exchange
import R1Emu.Handler.ItemSwap
import R1Emu.Game.CommanderTable
import R1Emu.Saving.CommanderRows
import R1Emu.Saving.Equipment
import R1Emu.MySql.Literals
import R1Emu.MySql.Persistence
import R1Emu.Crypto.Blowfish
import R1Emu.Server.ClientPackets
import R1Emu.Startup.GlobalServer
import R1Emu.Utils.Dump
import R1Emu.Utils.Random
import R1Emu.Tables.ItemTables
import R1Emu.Startup.Configuration
