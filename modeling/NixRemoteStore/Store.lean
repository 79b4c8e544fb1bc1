import NixRemoteStore.Events
import NixRemoteStore.OutputMap
import NixRemoteStore.Pool

/-! # The store facade and its connection handles

`RemoteStore` as a state machine over its pool, the factory's sticky `failed` flag and what
caller code observes; `withConnection` is the lifetime of a `ConnectionHandle`. Messages are
modelled without the colouring `hintfmt` puts around arguments. -/

namespace NixRemoteStore

open Wire

/-- The settings `setOptions` sends; `erased` names the ones it sends in its preamble or
keeps to the client, which are taken out of the overrides. -/
structure Settings where
  keepFailed : Bool
  keepGoing : Bool
  tryFallback : Bool
  verbosity : Nat
  maxBuildJobs : Nat
  maxSilentTime : Nat
  verboseBuild : Bool
  buildCores : Nat
  useSubstitutes : Bool
  overrides : List (Bytes × Bytes)
  erased : List Bytes

/-- The archive format `copyNAR` reads through (`parseDump`, not in the sources): given the
pieces read so far, the length of the next read, or `none` once the archive is complete. -/
structure NarFormat where
  next : List Bytes → Except Exn (Option Nat)
  next_pos : ∀ h n, next h = .ok (some n) → 0 < n

/-- The state of a `RemoteStore` and of the world its calls can observe. -/
structure StoreState where
  pool : Pool
  failed : Bool
  opened : Nat
  now : Nat
  fx : Effects
  /-- Which thread moves next while a framed stream is sent: `true` for the producer. -/
  sched : List Bool
  deriving DecidableEq, Repr

abbrev StoreM (α : Type) := EStateM Exn StoreState α

/-- What caller code that streams data does, step by step: hand over a chunk, call the
store (a source that re-enters it), or raise. -/
inductive ProducerStep
  | chunk (data : Bytes)
  | call (m : StoreM Unit)
  | raise (e : Exn)

/-- A `RemoteStore`: its protocol, its settings, what its subclass supplies, and the
methods of the base class `Store` that its operations fall back on (`store.cc`, not in the
sources). -/
structure Config where
  P : Protocol
  uri : Bytes
  maxConnections : Int
  maxConnectionAge : Nat
  /-- The subclass's `openConnection`, by the number of connections opened before. -/
  openConnection : Nat → Except Exn Connection
  /-- `e.what()`: an exception's message as it is shown. -/
  what : Exn → Bytes
  settings : Settings
  dynamicDerivations : Bool
  caDerivations : Bool
  nar : NarFormat
  /-- `Store::addMultipleToStore(source, repair, checkSigs)`: each path of the source added
  with `addToStore`. -/
  storeAddMultipleToStore : List ProducerStep → Bool → Bool → StoreM Unit
  /-- `Store::queryStaticPartialDerivationOutputMap` on this store, which reads the
  derivation through it. -/
  storeStaticOutputMap : Bytes → StoreM OutputMap
  /-- `Store::queryDerivationOutputs(path)`, which reads the outputs of the derivation's
  output map. -/
  storeQueryDerivationOutputs : Bytes → StoreM (List Bytes)


/-- While a `ConnectionHandle` is held: the store, the held connection, and the handle's
`daemonException` flag. -/
structure HandleState where
  store : StoreState
  conn : Connection
  daemonException : Bool
  deriving DecidableEq, Repr

abbrev HandleM (α : Type) := EStateM Exn HandleState α

def lvlError : Nat := 0
def lvlVomit : Nat := 7

def outcome {α : Type} : EStateM.Result Exn StoreState α → Option Exn × StoreState
  | .ok _ s => (none, s)
  | .error e s => (some e, s)

def ofExcept {σ α : Type} : Except Exn α → EStateM Exn σ α
  | .ok a => pure a
  | .error e => throw e

def modifyConn (f : Connection → Connection) : ConnM Unit :=
  modify fun st => { st with conn := f st.conn }

def onConnection {α : Type} (m : ConnM α) (c : Connection) : StoreM (α × Connection) := fun s =>
  match m ⟨c, s.fx⟩ with
  | .ok a cs => .ok (a, cs.conn) { s with fx := cs.fx }
  | .error e cs => .error e { s with fx := cs.fx }

def onConn {α : Type} (m : ConnM α) : HandleM α := fun hs =>
  match m ⟨hs.conn, hs.store.fx⟩ with
  | .ok a cs => .ok a { hs with conn := cs.conn, store := { hs.store with fx := cs.fx } }
  | .error e cs => .error e { hs with conn := cs.conn, store := { hs.store with fx := cs.fx } }

def onStore {α : Type} (m : StoreM α) : HandleM α := fun hs =>
  match m hs.store with
  | .ok a s => .ok a { hs with store := s }
  | .error e s => .error e { hs with store := s }

section Facade
variable (cfg : Config)

/-- The pool of a new store: no connection, capacity `std::max(1, (int) maxConnections)`. -/
def StoreState.init (now : Nat) (sched : List Bool) : StoreState :=
  ⟨⟨[], 0, (max 1 cfg.maxConnections).toNat⟩, false, 0, now, ⟨[], [], []⟩, sched⟩

def validator (now : Nat) (c : Connection) : Bool :=
  c.fromGood && decide (now - c.startTime < cfg.maxConnectionAge)

def drainOrRethrow : ConnM Unit := do
  match ← processStderr cfg.P none none true with
  | some info => throw (.error info)
  | none => pure ()

def checkMagic (magic : Nat) : ConnM Unit :=
  if magic ≠ cfg.P.workerMagic2 then throw (Exn.fail (txt "protocol mismatch")) else pure ()

def checkVersion (v : Nat) : ConnM Unit :=
  if getProtocolMajor v ≠ getProtocolMajor cfg.P.protocolVersion then
    throw (Exn.fail (txt "Nix daemon protocol version not supported"))
  else if getProtocolMinor v < cfg.P.minSupportedMinor then
    throw (Exn.fail (txt "the Nix daemon version is too old"))
  else pure ()

def readDaemonNixVersion (v : Nat) : ConnM Unit :=
  if 33 ≤ getProtocolMinor v then do
    flush
    let s ← readFrom readString
    modifyConn fun c => { c with daemonNixVersion := some s }
  else pure ()

def readRemoteTrustsUs (v : Nat) : ConnM Unit :=
  if 35 ≤ getProtocolMinor v then do
    let t ← readFrom cfg.P.trustedFlag.decode
    modifyConn fun c => { c with remoteTrustsUs := t }
  else modifyConn fun c => { c with remoteTrustsUs := none }

def daemonEofMsg : Bytes := txt "Nix daemon disconnected unexpectedly (maybe it crashed?)"

def sendMagic : ConnM Unit := do
  modifyConn fun c => { c with endOfFileError := daemonEofMsg }
  writeTo (writeNum cfg.P.workerMagic1)
  flush

def readDaemonVersion : ConnM Nat := do
  let magic ← readFrom readLongLong
  checkMagic cfg magic
  let v ← readFrom readInt
  modifyConn fun c => { c with daemonVersion := v }
  checkVersion cfg v
  pure v

def completeGreeting (v : Nat) : ConnM Unit := do
  writeTo (writeNum cfg.P.protocolVersion)
  writeTo (writeNum 0)
  writeTo (writeBool false)
  readDaemonNixVersion v
  readRemoteTrustsUs cfg v
  drainOrRethrow cfg

def handshake : ConnM Unit := do
  sendMagic cfg
  let v ← readDaemonVersion cfg
  completeGreeting cfg v

def Settings.sentOverrides (st : Settings) : List (Bytes × Bytes) :=
  st.overrides.filter fun o => o.1 ∉ st.erased

def setOptionsRequest : Bytes :=
  let st := cfg.settings
  writeNum (cfg.P.opCode .setOptions) ++ writeBool st.keepFailed ++
    writeBool st.keepGoing ++ writeBool st.tryFallback ++ writeNum st.verbosity ++
    writeNum st.maxBuildJobs ++ writeNum st.maxSilentTime ++ writeBool true ++
    writeNum (if st.verboseBuild then lvlError else lvlVomit) ++ writeNum 0 ++ writeNum 0 ++
    writeNum st.buildCores ++ writeBool st.useSubstitutes ++
    (writeNum st.sentOverrides.length ++
      (st.sentOverrides.map fun o => writeString o.1 ++ writeString o.2).flatten)

/-- `RemoteStore::setOptions(conn)`. -/
def setOptions : ConnM Unit := do
  writeTo (setOptionsRequest cfg)
  drainOrRethrow cfg

def openErrorMsg (e : Exn) : Bytes :=
  txt "cannot open connection to remote store '" ++ cfg.uri ++ txt "': " ++ cfg.what e

/-- `RemoteStore::initConnection`: the greeting, whose `Error`s are re-raised wrapped,
then `setOptions`. -/
def initConnection : ConnM Unit := do
  tryCatch (handshake cfg) fun e =>
    if e.isError then throw (Exn.fail (openErrorMsg cfg e)) else throw e
  setOptions cfg

def previouslyFailedMsg : Bytes :=
  txt "opening a connection to remote store '" ++ cfg.uri ++ txt "' previously failed"

/-- `RemoteStore::openConnectionWrapper`. -/
def openConnectionWrapper : StoreM Connection := do
  let s ← get
  if s.failed then throw (Exn.fail (previouslyFailedMsg cfg))
  else
    set { s with opened := s.opened + 1 }
    match cfg.openConnection s.opened with
    | .ok c => pure c
    | .error e =>
      modify fun s => { s with failed := true }
      throw e

/-- The pool's factory, the lambda of the `RemoteStore` constructor. -/
def factory : StoreM Connection := do
  let c ← openConnectionWrapper cfg
  tryCatch (Prod.snd <$> onConnection (initConnection cfg) c) fun e => do
    modify fun s => { s with failed := true }
    throw e

/-- `connections->get()`: an idle live connection, or a new one from the factory. -/
def poolGet : StoreM Connection := do
  let s ← get
  match s.pool.get (validator cfg s.now) with
  | (.idle c, p) =>
    set { s with pool := p }
    pure c
  | (.create, p) =>
    set { s with pool := p }
    tryCatch (factory cfg) fun e => do
      modify fun s => { s with pool := s.pool.cancel }
      throw e
  | (.blocked, p) =>
    set { s with pool := p }
    throw .blocked

def StoreState.giveBack (s : StoreState) (c : Connection) (bad : Bool) : StoreState :=
  { s with pool := s.pool.release (validator cfg s.now) c bad }

/-- A bare `Pool::Handle`: the connection goes back to the pool however `body` ends. -/
def withPoolHandle {α : Type} (body : ConnM α) : StoreM α := do
  let c ← poolGet cfg
  fun s => match body ⟨c, s.fx⟩ with
    | .ok a cs => .ok a ({ s with fx := cs.fx }.giveBack cfg cs.conn false)
    | .error e cs => .error e ({ s with fx := cs.fx }.giveBack cfg cs.conn false)

/-- The lifetime of a `ConnectionHandle` from `getConnection()`: when an exception escapes
`body` and the handle saw no daemon error, the destructor marks the connection bad. -/
def withConnection {α : Type} (body : HandleM α) : StoreM α := do
  let c ← poolGet cfg
  fun s => match body ⟨s, c, false⟩ with
    | .ok a hs => .ok a (hs.store.giveBack cfg hs.conn false)
    | .error e hs => .error e (hs.store.giveBack cfg hs.conn !hs.daemonException)

/-- The error `ConnectionHandle::processStderr` raises for a daemon error: with dynamic
derivations enabled and a daemon of minor 35 or older, an old daemon's complaint about the
derivation format gets a hint. -/
def daemonError (v : Nat) (info : ErrorInfo) : Exn :=
  if cfg.dynamicDerivations && decide (getProtocolMinor v ≤ 35) &&
      hasInfix (txt "parsing derivation") info.msg && hasInfix (txt "expected string") info.msg &&
      hasInfix (txt "Derive([") info.msg then
    Exn.fail (info.msg ++ txt ", this might be because the daemon is too old to understand " ++
      txt "dependencies on dynamic derivations. Check to see if the raw derivation is in the " ++
      txt "form '" ++ txt "DrvWithVersion(..)" ++ txt "'")
  else .error info

/-- What `ConnectionHandle::processStderr` does with the result of the event loop: a daemon
error is raised, recorded as coming from the daemon. -/
def rethrowDaemon : Option ErrorInfo → HandleM Unit
  | none => pure ()
  | some info => do
    modify fun hs => { hs with daemonException := true }
    let hs ← get
    throw (daemonError cfg hs.conn.daemonVersion info)

/-- `ConnectionHandle::processStderr`: drain the events and raise the daemon's error,
recording that it came from the daemon. -/
def handleProcessStderr (sink : Option Sink) (source : Option Source) (doFlush : Bool) :
    HandleM Unit :=
  onConn (processStderr cfg.P sink source doFlush) >>= rethrowDaemon cfg

/-- `RemoteStore::getProtocol`: the version of a connection from a bare pool handle. -/
def getProtocol : StoreM Nat :=
  withPoolHandle cfg do
    let st ← get
    pure st.conn.daemonVersion

end Facade

section Scenario

def Connection.opened (bytes : Bytes) : Connection := ⟨0, none, none, 0, bytes, true, [], [], 0⟩

def Connection.greeted (v : Nat) (bytes : Bytes) : Connection :=
  ⟨v, none, none, 0, bytes, true, daemonEofMsg, [], 0⟩

def StoreState.withIdle (c : Connection) : StoreState :=
  ⟨⟨[c], 0, 1⟩, false, 1, 0, ⟨[], [], []⟩, []⟩

def NarFormat.words (n : Nat) : NarFormat where
  next h := .ok (if h.length < n then some 8 else none)
  next_pos h k hk := by
    simp only [Except.ok.injEq] at hk
    split at hk <;> cases hk
    decide

/-- A store to run the model on: the `n`-th connection it opens reads `daemons[n]`, and there
is no daemon beyond them. -/
def Config.scenario (daemons : List Bytes) (maxConnections : Int) (maxConnectionAge : Nat) :
    Config where
  P := Protocol.scenario
  uri := txt "daemon"
  maxConnections := maxConnections
  maxConnectionAge := maxConnectionAge
  openConnection n := match daemons.get? n with
    | some bytes => .ok (Connection.opened bytes)
    | none => .error (.sysError 111 (txt "cannot connect to daemon"))
  what := Exn.msg
  settings := ⟨false, false, false, 0, 0, 0, false, 0, true, [], []⟩
  dynamicDerivations := false
  caDerivations := false
  nar := NarFormat.words 2
  storeAddMultipleToStore _ _ _ := pure ()
  storeStaticOutputMap _ := pure OutputMap.empty
  storeQueryDerivationOutputs _ := pure []

end Scenario

end NixRemoteStore
