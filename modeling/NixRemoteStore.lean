import NixRemoteStore.Errors
import NixRemoteStore.Wire
import NixRemoteStore.Protocol
import NixRemoteStore.Connection
import NixRemoteStore.Events
import NixRemoteStore.OutputMap
import NixRemoteStore.Pool
import NixRemoteStore.Store
import NixRemoteStore.FramedSink
import NixRemoteStore.Operations
import NixRemoteStore.Greeting
import NixRemoteStore.AddToStore
import NixRemoteStore.Builds
import NixRemoteStore.Runs
import NixRemoteStore.StaticEnv
import NixRemoteStore.Handles
import NixRemoteStore.Fetchurl
import NixRemoteStore.Frames
import NixRemoteStore.Substitutes
import NixRemoteStore.AddToStoreNar
