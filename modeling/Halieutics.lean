import Halieutics.Coroutine
import Halieutics.LuaTable
import Halieutics.Sync
import Halieutics.Roles
import Halieutics.DeskFreed
import Halieutics.FishBullets
import Halieutics.FishSum
import Halieutics.FishStock
import Halieutics.FishCaught
import Halieutics.FishHits
import Halieutics.FishBanker
import Halieutics.FishPool
import Halieutics.SyncBarrier
import Halieutics.PackageReader
import Halieutics.QueueBytes
import Halieutics.LobbyRefused
import Halieutics.Rooms
import Halieutics.Login
import Halieutics.GateRound
import Halieutics.WatchdogLoad
import Halieutics.Reconnect
import Halieutics.SessionAgree
import Halieutics.Notices
import Halieutics.Xlaunch
import Halieutics.Balanced
import Halieutics.DeskMembers
import Halieutics.DeskBarrier
import Halieutics.DeskInterrupted
import Halieutics.NewDesk
import Halieutics.BroadcastPull
import Halieutics.BroadcastQueue
import Halieutics.Auth
import Halieutics.Account
import Halieutics.LastestLogin
import Halieutics.GateEvents
import Halieutics.GateSignin
import Halieutics.Blacklist
import Halieutics.DeskDelegate
import Halieutics.DeskStart
import Halieutics.DeskUnpaid
import Halieutics.MydeskRestore
import Halieutics.DiamondsRestart
import Halieutics.SkynetTimer
import Halieutics.SprotoUnpack
import Halieutics.SkynetDispatch
import Halieutics.LuaSeriRoundTrip
import Halieutics.SkynetQueueLock
import Halieutics.SkynetHandle
