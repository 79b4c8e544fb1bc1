import NixRemoteStore.Protocol

/-! A connection to the daemon and its event loop, `RemoteStore::Connection::processStderr`.
The daemon is the bytes it sends; caller sinks, sources and the logger are observed through
`Effects`, so they may depend on all that went through them before. -/

namespace NixRemoteStore

open Wire

/-- `RemoteStore::Connection`. The write half never fails in this model, so `to.good()`
always holds and only `fromGood` is kept. -/
structure Connection where
  daemonVersion : Nat
  daemonNixVersion : Option Bytes
  remoteTrustsUs : Option TrustedFlag
  startTime : Nat
  /-- What the daemon has sent and the client has not read yet. -/
  from_ : Bytes
  fromGood : Bool
  endOfFileError : Bytes
  /-- Everything the client has written, in order. -/
  to_ : Bytes
  /-- How much of `to_` a flush has handed to the daemon. -/
  flushed : Nat
  deriving DecidableEq, Repr

inductive Field
  | int (n : Nat)
  | string (s : Bytes)
  deriving DecidableEq, Repr

inductive LogEvent
  | printError (s : Bytes)
  | startActivity (act lvl type : Nat) (s : Bytes) (fields : List Field) (parent : Nat)
  | stopActivity (act : Nat)
  | result (act type : Nat) (fields : List Field)
  | warn (s : Bytes)
  deriving DecidableEq, Repr

structure Effects where
  sinkWrites : List Bytes
  sourceChunks : List Bytes
  logs : List LogEvent
  deriving DecidableEq, Repr

structure ConnState where
  conn : Connection
  fx : Effects
  deriving DecidableEq, Repr

abbrev ConnM (α : Type) := EStateM Exn ConnState α

/-- A caller's `Sink`: the exception it raises on the next chunk, if any. -/
structure Sink where
  raises : List Bytes → Bytes → Option Exn

/-- A caller's `Source`: `read(buf, len)` gives at most `len` bytes, or raises. -/
structure Source where
  read : List Bytes → Nat → Except Exn Bytes
  read_le : ∀ h n b, read h n = .ok b → b.length ≤ n

namespace ConnState

def setFrom (st : ConnState) (rest : Bytes) : ConnState :=
  { st with conn := { st.conn with from_ := rest } }

@[simp] theorem setFrom_from (st : ConnState) (rest : Bytes) :
    (st.setFrom rest).conn.from_ = rest := rfl
@[simp] theorem setFrom_daemonVersion (st : ConnState) (rest : Bytes) :
    (st.setFrom rest).conn.daemonVersion = st.conn.daemonVersion := rfl
@[simp] theorem setFrom_setFrom (st : ConnState) (r r' : Bytes) :
    (st.setFrom r).setFrom r' = st.setFrom r' := rfl
@[simp] theorem setFrom_self (st : ConnState) : st.setFrom st.conn.from_ = st := rfl

def flushIf (b : Bool) (st : ConnState) : ConnState :=
  if b then { st with conn := { st.conn with flushed := st.conn.to_.length } } else st

@[simp] theorem flushIf_from (b : Bool) (st : ConnState) : (st.flushIf b).conn.from_ = st.conn.from_ := by
  cases b <;> rfl
@[simp] theorem flushIf_daemonVersion (b : Bool) (st : ConnState) :
    (st.flushIf b).conn.daemonVersion = st.conn.daemonVersion := by
  cases b <;> rfl

end ConnState

/-- Run a decoder on the front of the daemon's stream. End-of-file raises `EndOfFile` with
the connection's message and leaves the read half bad. -/
def readFrom {α : Type} (r : Reader α) : ConnM α := fun st =>
  match r st.conn.from_ with
  | .ok a rest => .ok a (st.setFrom rest)
  | .error .eof _ =>
    .error (.endOfFile st.conn.endOfFileError)
      { st with conn := { st.conn with from_ := [], fromGood := false } }
  | .error (.fail e) rest => .error e (st.setFrom rest)

theorem readFrom_eq {α : Type} {r : Reader α} {st : ConnState} {a : α} {rest : Bytes}
    (h : r st.conn.from_ = .ok a rest) : readFrom r st = .ok a (st.setFrom rest) := by
  simp [readFrom, h]

theorem readFrom_ok {α : Type} {r : Reader α} {st st' : ConnState} {a : α}
    (h : readFrom r st = .ok a st') :
    r st.conn.from_ = .ok a st'.conn.from_ ∧ st' = st.setFrom st'.conn.from_ := by
  unfold readFrom at h
  split at h
  · cases h; exact ⟨‹_›, rfl⟩
  all_goals cases h

theorem readFrom_decode_bind {α β : Type} (c : Codec α) {k : α → ConnM β} {st : ConnState}
    {a : α} {t : Bytes} (ha : c.valid a) (h : st.conn.from_ = c.encode a ++ t) :
    (readFrom c.decode >>= k) st = k a (st.setFrom t) := by
  rw [bind_ok (readFrom_eq (by rw [h]; exact c.decode_encode a t ha))]

theorem readFrom_decode_setFrom {α β : Type} (c : Codec α) {k : α → ConnM β} (st : ConnState)
    {a : α} (ha : c.valid a) (t : Bytes) :
    (readFrom c.decode >>= k) (st.setFrom (c.encode a ++ t)) = k a (st.setFrom t) := by
  rw [readFrom_decode_bind c ha rfl, ConnState.setFrom_setFrom]

theorem readFrom_decode_bind_ok {α β : Type} (c : Codec α) {k : α → ConnM β}
    {st st' : ConnState} {b : β} (h : (readFrom c.decode >>= k) st = .ok b st') :
    ∃ a t, c.valid a ∧ st.conn.from_ = c.encode a ++ t ∧ k a (st.setFrom t) = .ok b st' := by
  obtain ⟨a, st₁, hr, hk⟩ := bind_eq_ok.mp h
  obtain ⟨hd, hst⟩ := readFrom_ok hr
  obtain ⟨hv, he⟩ := c.decode_sound hd
  exact ⟨a, _, hv, he, hst ▸ hk⟩

theorem readFrom_decode_setFrom_ok {α β : Type} (c : Codec α) {k : α → ConnM β}
    {st st' : ConnState} {t₀ : Bytes} {b : β} (h : (readFrom c.decode >>= k) (st.setFrom t₀) = .ok b st') :
    ∃ a t, c.valid a ∧ t₀ = c.encode a ++ t ∧ k a (st.setFrom t) = .ok b st' := by
  obtain ⟨a, t, hv, he, hk⟩ := readFrom_decode_bind_ok c h
  exact ⟨a, t, hv, he, by simpa using hk⟩

def writeTo (bs : Bytes) : ConnM Unit := fun st =>
  .ok () { st with conn := { st.conn with to_ := st.conn.to_ ++ bs } }

def flush : ConnM Unit := fun st =>
  .ok () { st with conn := { st.conn with flushed := st.conn.to_.length } }

def callSink (sink : Sink) (s : Bytes) : ConnM Unit := fun st =>
  match sink.raises st.fx.sinkWrites s with
  | some e => .error e st
  | none => .ok () { st with fx := { st.fx with sinkWrites := st.fx.sinkWrites ++ [s] } }

def callSource (source : Source) (len : Nat) : ConnM Bytes := fun st =>
  match source.read st.fx.sourceChunks len with
  | .error e => .error e st
  | .ok b => .ok b { st with fx := { st.fx with sourceChunks := st.fx.sourceChunks ++ [b] } }

def log (e : LogEvent) : ConnM Unit := fun st =>
  .ok () { st with fx := { st.fx with logs := st.fx.logs ++ [e] } }

section Reads
variable (P : Protocol)

def readField : Reader Field := do
  let type ← readInt
  if type = P.fieldType .tInt then return .int (← readNum u64Max)
  else if type = P.fieldType .tString then return .string (← readString)
  else throw (.fail (Exn.fail (txt "got unsupported field type " ++ hex type ++
    txt " from Nix daemon")))

def readFieldsN : Nat → Reader (List Field)
  | 0 => pure []
  | n+1 => do
    let f ← readField P
    let fs ← readFieldsN n
    pure (f :: fs)

/-- `readFields`: a count read as `unsigned int`, then the fields. -/
def readFields : Reader (List Field) := do
  let size ← readInt
  readFieldsN P size

end Reads

inductive Turn
  | more
  | done (r : Option ErrorInfo)
  deriving DecidableEq, Repr

section Loop
variable (P : Protocol) (sink : Option Sink) (source : Option Source)

/-- The body of the `while (true)` loop of `Connection::processStderr`. -/
def processStderrStep : ConnM Turn := do
  let msg ← readFrom (readNum u64Max)
  if msg = P.stderr .write then
    let s ← readFrom readString
    match sink with
    | none => throw (Exn.fail (txt "no sink"))
    | some sink => callSink sink s
    pure .more
  else if msg = P.stderr .read then
    match source with
    | none => throw (Exn.fail (txt "no source"))
    | some source =>
      let len ← readFrom (readNum u64Max)
      let chunk ← callSource source len
      writeTo (writeString chunk)
      flush
      pure .more
  else if msg = P.stderr .error then
    let st ← get
    if 26 ≤ getProtocolMinor st.conn.daemonVersion then
      return .done (some (← readFrom P.errorRecord.decode))
    else
      let error ← readFrom readString
      let status ← readFrom readInt
      return .done (some (ErrorInfo.ofMsg error status))
  else if msg = P.stderr .next then
    log (.printError (P.chomp (← readFrom readString)))
    pure .more
  else if msg = P.stderr .startActivity then
    let act ← readFrom (readNum u64Max)
    let lvl ← readFrom readInt
    let type ← readFrom readInt
    let s ← readFrom readString
    let fields ← readFrom (readFields P)
    let parent ← readFrom (readNum u64Max)
    log (.startActivity act lvl type s fields parent)
    pure .more
  else if msg = P.stderr .stopActivity then
    log (.stopActivity (← readFrom (readNum u64Max)))
    pure .more
  else if msg = P.stderr .result then
    let act ← readFrom (readNum u64Max)
    let type ← readFrom readInt
    let fields ← readFrom (readFields P)
    log (.result act type fields)
    pure .more
  else if msg = P.stderr .last then
    pure (.done none)
  else
    throw (Exn.fail (txt "got unknown message type " ++ hex msg ++ txt " from Nix daemon"))

/-- The loop, with one turn of fuel per byte left to read: every turn reads at least the
8 bytes of a tag, so the fuel never runs out first. -/
def processStderrLoop : Nat → ConnM (Option ErrorInfo)
  | 0 => throw (Exn.fail (txt "no progress"))
  | fuel+1 => do
    match ← processStderrStep P sink source with
    | .more => processStderrLoop fuel
    | .done r => pure r

/-- `Connection::processStderr(sink, source, flush)`: drain the event stream up to `LAST`
or `ERROR`, returning the daemon's error instead of raising it. -/
def processStderr (doFlush : Bool) : ConnM (Option ErrorInfo) := do
  if doFlush then flush
  let st ← get
  processStderrLoop P sink source (st.conn.from_.length + 1)

theorem processStderr_eq (doFlush : Bool) (st : ConnState) :
    processStderr P sink source doFlush st =
      processStderrLoop P sink source (st.conn.from_.length + 1) (st.flushIf doFlush) := by
  cases doFlush <;> rfl

end Loop

end NixRemoteStore
