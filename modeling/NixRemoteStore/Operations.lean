import NixRemoteStore.Store

/-! # Request and reply operations

The request-and-reply operations of `RemoteStore` as one definition, `simpleOp`, given each
one's op code, arguments and reply; then the operations with a body of their own. -/

namespace NixRemoteStore

open Wire

/-- `StorePathSet` and `std::set<std::string>` on the wire: a count, then the paths as
strings (modelled from §3 and §4.1 of the spec). -/
@[reducible] def storePaths : Codec (List Bytes) := Codec.list Codec.string

def least {α : Type} (lt : α → α → Bool) : List α → Option α
  | [] => none
  | a :: as => some (as.foldl (fun m b => if lt b m then b else m) a)

def Realisation.lt (r s : Realisation) : Bool :=
  bytesLt r.id.drvHash s.id.drvHash || (r.id.drvHash == s.id.drvHash &&
    (bytesLt r.id.outputName s.id.outputName ||
      (r.id.outputName == s.id.outputName && bytesLt r.outPath s.outPath)))

section Ops
variable (cfg : Config)

def writeRequest (op : Op) (args : Bytes) : HandleM Unit :=
  onConn (writeTo (writeNum (cfg.P.opCode op) ++ args))

def readReply {α : Type} (c : Nat → Codec α) : HandleM α := do
  let hs ← get
  onConn (readFrom (c hs.conn.daemonVersion).decode)

/-- The operations that write an op code and arguments, drain the events and read one
reply, the arguments and the reply chosen by the held connection's version. -/
def simpleOp {α : Type} (op : Op) (args : Nat → Bytes) (reply : Nat → Reader α) : StoreM α :=
  withConnection cfg do
    let hs ← get
    writeRequest cfg op (args hs.conn.daemonVersion)
    handleProcessStderr cfg none none true
    onConn (readFrom (reply hs.conn.daemonVersion))

def readBool : Reader Bool := (· != 0) <$> readInt

def readUnit : Reader Unit := (fun _ => ()) <$> readInt

def isValidPathUncached (path : Bytes) : StoreM Bool :=
  simpleOp cfg .isValidPath (fun _ => writeString path) fun _ => readBool

/-- `RemoteStore::queryValidPaths`: the substitution flag is sent from minor 27 on. -/
def queryValidPaths (paths : List Bytes) (maybeSubstitute : Bool) : StoreM (List Bytes) :=
  simpleOp cfg .queryValidPaths
    (fun v => storePaths.encode paths ++
      if 27 ≤ getProtocolMinor v then writeBool maybeSubstitute else [])
    fun _ => storePaths.decode

def queryAllValidPaths : StoreM (List Bytes) :=
  simpleOp cfg .queryAllValidPaths (fun _ => []) fun _ => storePaths.decode

def querySubstitutablePaths (paths : List Bytes) : StoreM (List Bytes) :=
  simpleOp cfg .querySubstitutablePaths (fun _ => storePaths.encode paths)
    fun _ => storePaths.decode

def queryReferrers (path : Bytes) : StoreM (List Bytes) :=
  simpleOp cfg .queryReferrers (fun _ => writeString path) fun _ => storePaths.decode

def queryValidDerivers (path : Bytes) : StoreM (List Bytes) :=
  simpleOp cfg .queryValidDerivers (fun _ => writeString path) fun _ => storePaths.decode

def queryPathFromHashPart (hashPart : Bytes) : StoreM (Option Bytes) :=
  simpleOp cfg .queryPathFromHashPart (fun _ => writeString hashPart)
    fun _ => (fun p => if p = [] then none else some p) <$> readString

/-- `RemoteStore::registerDrvOutput`: before minor 31 the id and the path as strings. -/
def registerDrvOutput (info : Realisation) : StoreM Unit :=
  simpleOp cfg .registerDrvOutput
    (fun v => if getProtocolMinor v < 31 then writeString info.id.toString ++ writeString info.outPath
      else (cfg.P.realisation v).encode info)
    fun _ => pure ()

def ensurePath (path : Bytes) : StoreM Unit :=
  simpleOp cfg .ensurePath (fun _ => writeString path) fun _ => readUnit

def addTempRoot (path : Bytes) : StoreM Unit :=
  simpleOp cfg .addTempRoot (fun _ => writeString path) fun _ => readUnit

def findRoots (_censor : Bool) : StoreM (List (Bytes × Bytes)) :=
  simpleOp cfg .findRoots (fun _ => []) fun _ => (Codec.list (Codec.string.pair Codec.string)).decode

def collectGarbage (action : Nat) (pathsToDelete : List Bytes) (ignoreLiveness : Bool)
    (maxFreed : Nat) : StoreM (List Bytes × Nat) :=
  simpleOp cfg .collectGarbage
    (fun _ => writeNum action ++ storePaths.encode pathsToDelete ++ writeBool ignoreLiveness ++
      writeNum maxFreed ++ writeNum 0 ++ writeNum 0 ++ writeNum 0)
    fun _ => do
      let paths ← storePaths.decode
      let bytesFreed ← readLongLong
      let _ ← readLongLong
      pure (paths, bytesFreed)

def optimiseStore : StoreM Unit :=
  simpleOp cfg .optimiseStore (fun _ => []) fun _ => readUnit

def verifyStore (checkContents repair : Bool) : StoreM Bool :=
  simpleOp cfg .verifyStore (fun _ => writeBool checkContents ++ writeBool repair) fun _ => readBool

def addSignatures (storePath : Bytes) (sigs : List Bytes) : StoreM Unit :=
  simpleOp cfg .addSignatures (fun _ => writeString storePath ++ writeStrings sigs)
    fun _ => readUnit

def queryMissing (targets : List DerivedPath) :
    StoreM (List Bytes × List Bytes × List Bytes × Nat × Nat) :=
  simpleOp cfg .queryMissing (fun v => (Codec.list (cfg.P.derivedPath v)).encode targets)
    fun _ => do
      let willBuild ← storePaths.decode
      let willSubstitute ← storePaths.decode
      let unknown ← storePaths.decode
      let downloadSize ← readLongLong
      let narSize ← readLongLong
      pure (willBuild, willSubstitute, unknown, downloadSize, narSize)

def getVersion : StoreM (Option Bytes) :=
  withConnection cfg do
    let hs ← get
    pure hs.conn.daemonNixVersion

def isTrustedClient : StoreM (Option TrustedFlag) :=
  withConnection cfg do
    let hs ← get
    pure hs.conn.remoteTrustsUs

def connect : StoreM Unit := withConnection cfg (pure ())

/-- `RemoteStore::queryPathInfoUncached`: an `Error` whose message says the path is not
valid means no path info. -/
def queryPathInfoUncached (path : Bytes) : StoreM (Option Bytes) :=
  withConnection cfg do
    writeRequest cfg .queryPathInfo (writeString path)
    let notValid ← tryCatch (do handleProcessStderr cfg none none true; pure false) fun e =>
      if e.isError && hasInfix (txt "is not valid") e.msg then pure true else throw e
    if notValid then return none
    let valid ← onConn (readFrom readLongLong)
    if valid = 0 then return none
    some <$> readReply cfg.P.unkeyedValidPathInfo

/-- `RemoteStore::queryRealisationUncached`: nothing from daemons before minor 27; before
minor 31 the daemon sends output paths, from 31 on realisations. -/
def queryRealisationUncached (id : DrvOutput) : StoreM (Option Realisation) :=
  withConnection cfg do
    let hs ← get
    if getProtocolMinor hs.conn.daemonVersion < 27 then
      onConn (log (.warn (txt "the daemon is too old to support content-addressed " ++
        txt "derivations, please upgrade it to 2.4")))
      return none
    writeRequest cfg .queryRealisation (writeString id.toString)
    handleProcessStderr cfg none none true
    if getProtocolMinor hs.conn.daemonVersion < 31 then
      let outPaths ← onConn (readFrom storePaths.decode)
      return (least bytesLt outPaths).map fun p => ⟨id, p⟩
    else
      let realisations ← readReply fun v => Codec.list (cfg.P.realisation v)
      return least Realisation.lt realisations

def copyNARLoop (sink : Sink) : Nat → List Bytes → ConnM Unit
  | 0, _ => throw (Exn.fail (txt "no progress"))
  | fuel+1, pieces => do
    match cfg.nar.next pieces with
    | .error e => throw e
    | .ok none => pure ()
    | .ok (some n) =>
      let piece ← readFrom (readBytes n)
      callSink sink piece
      copyNARLoop sink fuel (pieces ++ [piece])

/-- `copyNAR(conn->from, sink)`: one archive from the daemon's stream, teed into `sink`;
every read takes at least one byte, so one turn per byte left is enough. -/
def copyNAR (sink : Sink) : ConnM Unit := do
  let st ← get
  copyNARLoop cfg sink (st.conn.from_.length + 1) []

/-- `RemoteStore::narFromPath`: a bare pool handle, and the result of the event loop is
dropped. -/
def narFromPath (path : Bytes) (sink : Sink) : StoreM Unit :=
  withPoolHandle cfg do
    writeTo (writeNum (cfg.P.opCode .narFromPath) ++ writeString path)
    let _ ← processStderr cfg.P none none true
    copyNAR cfg sink

end Ops

/-- `narFromPath` holds a bare pool handle: when the caller's sink raises on the first word
of the archive, the connection goes back to the pool unpoisoned and good, with the second
word of the daemon's response unread. -/
theorem narFromPath_returns_half_read_connection :
    (outcome (narFromPath (Config.scenario [] 1 1000) (txt "/nix/store/x")
      ⟨fun _ _ => some (.foreign 1)⟩ (StoreState.withIdle (Connection.greeted 0x11a
        (writeNum (StderrMsg.tag .last) ++ writeNum 7 ++ writeNum 9))))).1 = some (.foreign 1) ∧
    (outcome (narFromPath (Config.scenario [] 1 1000) (txt "/nix/store/x")
      ⟨fun _ _ => some (.foreign 1)⟩ (StoreState.withIdle (Connection.greeted 0x11a
        (writeNum (StderrMsg.tag .last) ++ writeNum 7 ++ writeNum 9))))).2.pool.idle.map
      (fun c => (c.fromGood, c.from_)) = [(true, writeNum 9)] := by
  decide

/-- `narFromPath` drops the daemon's error: after an `ERROR` record it reads on for the
archive and raises end-of-file instead. -/
theorem narFromPath_drops_daemon_error :
    (outcome (narFromPath (Config.scenario [] 1 1000) (txt "/nix/store/x")
      ⟨fun _ _ => none⟩ (StoreState.withIdle (Connection.greeted 0x119
        (writeNum (StderrMsg.tag .error) ++ writeString (txt "boom") ++ writeNum 1))))).1 =
      some (.endOfFile (txt "Nix daemon disconnected unexpectedly (maybe it crashed?)")) := by
  decide

end NixRemoteStore
