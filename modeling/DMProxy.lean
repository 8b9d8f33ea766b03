import DMProxy.Transition.Machine
import DMProxy.Arithmetic.Cycle
import DMProxy.Async.Pending
import DMProxy.Async.RwLock
import DMProxy.Compression.Ungzip
import DMProxy.Compression.UngzipCounted
import DMProxy.Platforms.Activity
import DMProxy.Platforms.Isolation
import DMProxy.Platforms.ListenerLock
import DMProxy.Platforms.Closure
import DMProxy.Platforms.ChatOrder
import DMProxy.Platforms.Finality
import DMProxy.Platforms.BilibiliFrames
import DMProxy.Platforms.DouyuFrames
import DMProxy.Platforms.DouyuLogin
import DMProxy.Platforms.Encoding
import DMProxy.Platforms.HttpBody
import DMProxy.Platforms.HuajiaoLogin
import DMProxy.Platforms.HuajiaoPackets
import DMProxy.Platforms.BilibiliChat
import DMProxy.Platforms.YYChat
import DMProxy.Platforms.YYHeartbeat
import DMProxy.Platforms.YYPackets
import DMProxy.Platforms.PublishedText
import DMProxy.Registry.Injection
import DMProxy.Platforms.Packets
import DMProxy.Platforms.Sessions
import DMProxy.Platforms.YYTimer
import DMProxy.Network.Io
import DMProxy.Network.Packets
import DMProxy.Registry.Broadcast
import DMProxy.Registry.Callback
import DMProxy.Registry.Cleanup
import DMProxy.Registry.Keys
import DMProxy.Registry.ClientView
import DMProxy.Registry.LifeCycle
import DMProxy.Registry.LockSteps
import DMProxy.Registry.Noninterference
import DMProxy.Registry.Rejection
import DMProxy.Registry.SingleFeed
import DMProxy.Transition.Output
import DMProxy.Registry.Subscription
import DMProxy.Registry.Teardown
import DMProxy.Platforms.ServerView
