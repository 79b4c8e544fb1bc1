import NixRemoteStore.FramedSink

/-! # Opening a connection

The pool's factory: `openConnectionWrapper`, the greeting of `initConnection` and
`setOptions`. A connection is handed out only after a greeting that follows the protocol,
and the client sends its version only after it has checked the daemon's. -/

namespace NixRemoteStore

open Wire

section Steps
variable {α : Type} (k : Unit → ConnM α) (st : ConnState)

@[simp] theorem modifyConn_bind (f : Connection → Connection) :
    (modifyConn f >>= k) st = k () { st with conn := f st.conn } := rfl

@[simp] theorem writeTo_bind (bs : Bytes) :
    (writeTo bs >>= k) st = k () { st with conn := { st.conn with to_ := st.conn.to_ ++ bs } } :=
  rfl

@[simp] theorem flush_bind :
    (flush >>= k) st = k () { st with conn := { st.conn with flushed := st.conn.to_.length } } :=
  rfl

theorem guard_bind (c : Prop) [Decidable c] (e : Exn) :
    ((if c then throw e else pure ()) >>= k) st = if c then .error e st else k () st := by
  split <;> rfl

end Steps

theorem forM_perform_conn (P : Protocol) {E : List Event} (hE : ∀ e ∈ E, e.valid P none none)
    {st st' : ConnState} (h : E.forM (Event.perform P none none) st = .ok () st') :
    st'.conn = st.conn := by
  induction E generalizing st with
  | nil => cases h; rfl
  | cons e E ih =>
    simp only [List.mem_cons, forall_eq_or_imp] at hE
    rw [List.forM_cons'] at h
    obtain ⟨u, s₁, h₁, h₂⟩ := bind_eq_ok.mp h
    rw [ih hE.2 h₂]
    cases e with
    | write s => simp [Event.valid] at hE
    | read len => simp [Event.valid] at hE
    | next | startActivity | stopActivity | result => cases h₁; rfl

/-- What a daemon of version `v` sends after its version word: its Nix version from minor 33
on, and from minor 35 on whether it trusts the client. -/
def daemonInfoBytes (P : Protocol) (v : Nat) (nixVersion : Bytes) (trust : Option TrustedFlag) :
    Bytes :=
  (if 33 ≤ getProtocolMinor v then writeString nixVersion else []) ++
    (if 35 ≤ getProtocolMinor v then P.trustedFlag.encode trust else [])

/-- The daemon's side of the greeting and of `setOptions`: its magic word, its version, what
its version says it sends, and the events of the two drains, each ended by `LAST`. -/
def greetingBytes (P : Protocol) (v : Nat) (nixVersion : Bytes) (trust : Option TrustedFlag)
    (E₁ E₂ : List Event) : Bytes :=
  writeNum P.workerMagic2 ++ writeNum v ++ daemonInfoBytes P v nixVersion trust ++
    encodeEvents P E₁ ++ Terminal.encode P .last ++ encodeEvents P E₂ ++ Terminal.encode P .last

/-- A version the client accepts: a 32-bit word with the client's major version and at least
the oldest minor version the client supports. -/
def VersionOk (P : Protocol) (v : Nat) : Prop :=
  v ≤ u32Max ∧ getProtocolMajor v = getProtocolMajor P.protocolVersion ∧
    P.minSupportedMinor ≤ getProtocolMinor v

def DaemonInfoValid (P : Protocol) (v : Nat) (nixVersion : Bytes) (trust : Option TrustedFlag) :
    Prop :=
  (33 ≤ getProtocolMinor v → nixVersion.length ≤ u64Max) ∧
    (35 ≤ getProtocolMinor v → P.trustedFlag.valid trust)

def clientGreeting (P : Protocol) : Bytes :=
  writeNum P.workerMagic1 ++ writeNum P.protocolVersion ++ writeNum 0 ++ writeBool false

def Connection.afterGreeting (P : Protocol) (c : Connection) (v : Nat) (nixVersion : Bytes)
    (trust : Option TrustedFlag) (rest : Bytes) : Connection :=
  { c with
    endOfFileError := daemonEofMsg
    daemonVersion := v
    daemonNixVersion := if 33 ≤ getProtocolMinor v then some nixVersion else c.daemonNixVersion
    remoteTrustsUs := if 35 ≤ getProtocolMinor v then trust else none
    from_ := rest
    to_ := c.to_ ++ clientGreeting P
    flushed := (c.to_ ++ clientGreeting P).length }

def ConnState.sentMagic (P : Protocol) (st : ConnState) : ConnState :=
  { st with conn := { st.conn with
    endOfFileError := daemonEofMsg
    to_ := st.conn.to_ ++ writeNum P.workerMagic1
    flushed := (st.conn.to_ ++ writeNum P.workerMagic1).length } }

@[simp] theorem ConnState.sentMagic_from (P : Protocol) (st : ConnState) :
    (st.sentMagic P).conn.from_ = st.conn.from_ := rfl

@[simp] theorem ConnState.sentMagic_to (P : Protocol) (st : ConnState) :
    (st.sentMagic P).conn.to_ = st.conn.to_ ++ writeNum P.workerMagic1 := rfl

/-- The daemon's stream begins with its magic word and a version the client accepts. -/
def GreetingStart (P : Protocol) (bytes : Bytes) : Prop :=
  ∃ v t, VersionOk P v ∧ bytes = writeNum P.workerMagic2 ++ writeNum v ++ t

def WritesNothing {α : Type} (m : ConnM α) : Prop :=
  ∀ st, (resultState (m st)).conn.to_ = st.conn.to_

section WritesNothing
variable {α β : Type}

theorem writesNothing_pure (a : α) : WritesNothing (pure a : ConnM α) := fun _ => rfl

theorem writesNothing_throw (e : Exn) : WritesNothing (throw e : ConnM α) := fun _ => rfl

theorem writesNothing_bind {m : ConnM α} {f : α → ConnM β} (hm : WritesNothing m)
    (hf : ∀ a, WritesNothing (f a)) : WritesNothing (m >>= f) := by
  intro st
  have h := hm st
  simp only [run_bind]
  rcases hr : m st with ⟨a, s'⟩ | ⟨e, s'⟩ <;> rw [hr] at h
  · rw [hf a s']; exact h
  · exact h

theorem writesNothing_ite {c : Prop} [Decidable c] {x y : ConnM α} (hx : WritesNothing x)
    (hy : WritesNothing y) : WritesNothing (if c then x else y) := by
  split <;> assumption

theorem writesNothing_readFrom (r : Reader α) : WritesNothing (readFrom r) := by
  intro st
  unfold readFrom
  split <;> rfl

theorem writesNothing_modifyConn {f : Connection → Connection} (hf : ∀ c, (f c).to_ = c.to_) :
    WritesNothing (modifyConn f) := fun st => hf st.conn

theorem writesNothing_flush : WritesNothing flush := fun _ => rfl

theorem writesNothing_of_readHalf {m : ConnM α} (h : ReadHalf m) : WritesNothing m := by
  intro st
  have := h st st (SameReadHalf.refl _)
  revert this
  cases m st <;> exact fun h => h.2.2.1

end WritesNothing

theorem processStderrLoop_writesNothing (P : Protocol) (fuel : Nat) :
    WritesNothing (processStderrLoop P none none fuel) := by
  induction fuel with
  | zero => exact writesNothing_throw _
  | succ f ih =>
    refine writesNothing_bind (writesNothing_of_readHalf (processStderrStep_readHalf P)) fun t => ?_
    cases t with
    | more => exact ih
    | done r => exact writesNothing_pure _

theorem processStderr_writesNothing (P : Protocol) (doFlush : Bool) :
    WritesNothing (processStderr P none none doFlush) := by
  intro st
  rw [processStderr_eq, processStderrLoop_writesNothing]
  cases doFlush <;> rfl

theorem resultState_bind_error {α β : Type} {m : ConnM α} {k : α → ConnM β} {st s' : ConnState}
    {e : Exn} (h : m st = .error e s') : resultState ((m >>= k) st) = s' := by
  simp [h]

section Handshake
variable (cfg : Config)

theorem drainOrRethrow_writesNothing : WritesNothing (drainOrRethrow cfg) := by
  refine writesNothing_bind (processStderr_writesNothing _ _) fun r => ?_
  cases r
  · exact writesNothing_pure _
  · exact writesNothing_throw _

theorem readDaemonVersion_writesNothing : WritesNothing (readDaemonVersion cfg) := by
  unfold readDaemonVersion checkMagic checkVersion
  repeat' first
    | with_reducible refine writesNothing_bind ?_ fun _ => ?_
    | with_reducible refine writesNothing_ite ?_ ?_
    | exact writesNothing_pure _
    | exact writesNothing_throw _
    | exact writesNothing_readFrom _
    | exact writesNothing_modifyConn fun _ => rfl

theorem completeGreeting_writes (v : Nat) (st : ConnState) :
    (resultState (completeGreeting cfg v st)).conn.to_ =
      st.conn.to_ ++ writeNum cfg.P.protocolVersion ++ writeNum 0 ++ writeBool false := by
  unfold completeGreeting readDaemonNixVersion readRemoteTrustsUs
  simp only [writeTo_bind]
  refine (writesNothing_bind ?_ fun _ => writesNothing_bind ?_ fun _ =>
    drainOrRethrow_writesNothing cfg) _
  · exact writesNothing_ite (writesNothing_bind writesNothing_flush fun _ =>
      writesNothing_bind (writesNothing_readFrom _) fun _ => writesNothing_modifyConn fun _ => rfl)
      (writesNothing_pure _)
  · exact writesNothing_ite (writesNothing_bind (writesNothing_readFrom _) fun _ =>
      writesNothing_modifyConn fun _ => rfl) (writesNothing_modifyConn fun _ => rfl)

theorem handshake_eq (st : ConnState) :
    handshake cfg st = (readDaemonVersion cfg >>= completeGreeting cfg) (st.sentMagic cfg.P) :=
  rfl

theorem checkMagic_bind {α : Type} (k : Unit → ConnM α) (m : Nat) (st : ConnState) :
    (checkMagic cfg m >>= k) st =
      if m ≠ cfg.P.workerMagic2 then .error (Exn.fail (txt "protocol mismatch")) st
      else k () st :=
  guard_bind k st _ _

theorem checkVersion_bind {α : Type} (k : Unit → ConnM α) (v : Nat) (st : ConnState) :
    (checkVersion cfg v >>= k) st =
      if getProtocolMajor v ≠ getProtocolMajor cfg.P.protocolVersion then
        .error (Exn.fail (txt "Nix daemon protocol version not supported")) st
      else if getProtocolMinor v < cfg.P.minSupportedMinor then
        .error (Exn.fail (txt "the Nix daemon version is too old")) st
      else k () st := by
  unfold checkVersion
  split_ifs <;> rfl

theorem readDaemonVersion_ok {st st' : ConnState} {v : Nat}
    (h : readDaemonVersion cfg st = .ok v st') :
    VersionOk cfg.P v ∧ ∃ t, st.conn.from_ = writeNum cfg.P.workerMagic2 ++ writeNum v ++ t ∧
      st' = { st with conn := { st.conn with daemonVersion := v, from_ := t } } := by
  unfold readDaemonVersion at h
  obtain ⟨magic, t₁, -, hfrom₁, h⟩ := readFrom_decode_bind_ok Codec.u64 h
  rw [checkMagic_bind] at h
  split_ifs at h with hmagic
  obtain ⟨v', t₂, hv, hfrom₂, h⟩ := readFrom_decode_bind_ok Codec.u32 h
  rw [modifyConn_bind, checkVersion_bind] at h
  split_ifs at h with hmaj hmin
  cases h
  simp only [not_not] at hmagic
  simp only [ne_eq, not_not, not_lt] at hmaj hmin
  subst hmagic
  simp only [ConnState.setFrom_from] at hfrom₂
  refine ⟨⟨hv, hmaj, hmin⟩, t₂, by simp [hfrom₁, hfrom₂], rfl⟩

theorem readDaemonVersion_eq (st : ConnState) {v : Nat} {t : Bytes} (hv : VersionOk cfg.P v)
    (hfrom : st.conn.from_ = writeNum cfg.P.workerMagic2 ++ writeNum v ++ t) :
    readDaemonVersion cfg st =
      .ok v { st with conn := { st.conn with daemonVersion := v, from_ := t } } := by
  unfold readDaemonVersion
  rw [readFrom_decode_bind Codec.u64 cfg.P.workerMagic2_le (by rw [hfrom, List.append_assoc]),
    checkMagic_bind, if_neg (not_not.mpr rfl), readFrom_decode_setFrom Codec.u32 st hv.1 t,
    modifyConn_bind, checkVersion_bind, if_neg (not_not.mpr hv.2.1),
    if_neg (Nat.not_lt.mpr hv.2.2)]
  rfl

theorem readDaemonNixVersion_ok {v : Nat} {st st' : ConnState}
    (h : readDaemonNixVersion v st = .ok () st') :
    ∃ nv t, (33 ≤ getProtocolMinor v → nv.length ≤ u64Max) ∧
      st.conn.from_ = (if 33 ≤ getProtocolMinor v then writeString nv else []) ++ t ∧
      st' = { st with conn := { st.conn with
        daemonNixVersion := if 33 ≤ getProtocolMinor v then some nv else st.conn.daemonNixVersion,
        from_ := t,
        flushed := if 33 ≤ getProtocolMinor v then st.conn.to_.length else st.conn.flushed } } := by
  unfold readDaemonNixVersion at h
  split_ifs at h with hv
  · rw [flush_bind] at h
    obtain ⟨nv, t, hnv, hfrom, h⟩ := readFrom_decode_bind_ok Codec.string h
    cases h
    refine ⟨nv, t, fun _ => hnv, by simpa [hv] using hfrom, ?_⟩
    simp only [hv, ↓reduceIte]
    rfl
  · cases h
    refine ⟨[], st.conn.from_, by simp [hv], by simp [hv], ?_⟩
    simp only [hv, ↓reduceIte]

theorem readDaemonNixVersion_eq (st : ConnState) {v : Nat} {nv t : Bytes}
    (hnv : 33 ≤ getProtocolMinor v → nv.length ≤ u64Max)
    (hfrom : st.conn.from_ = (if 33 ≤ getProtocolMinor v then writeString nv else []) ++ t) :
    readDaemonNixVersion v st = .ok () { st with conn := { st.conn with
        daemonNixVersion := if 33 ≤ getProtocolMinor v then some nv else st.conn.daemonNixVersion,
        from_ := t,
        flushed := if 33 ≤ getProtocolMinor v then st.conn.to_.length else st.conn.flushed } } := by
  unfold readDaemonNixVersion
  split_ifs with hv
  · rw [flush_bind, readFrom_decode_bind Codec.string (hnv hv) (by simpa [hv] using hfrom)]
    rfl
  · simp only [hv, ↓reduceIte, List.nil_append] at hfrom
    rw [← hfrom]
    rfl

theorem readRemoteTrustsUs_ok {v : Nat} {st st' : ConnState}
    (h : readRemoteTrustsUs cfg v st = .ok () st') :
    ∃ t rest, (35 ≤ getProtocolMinor v → cfg.P.trustedFlag.valid t) ∧
      st.conn.from_ = (if 35 ≤ getProtocolMinor v then cfg.P.trustedFlag.encode t else []) ++ rest ∧
      st' = { st with conn := { st.conn with
        remoteTrustsUs := if 35 ≤ getProtocolMinor v then t else none, from_ := rest } } := by
  unfold readRemoteTrustsUs at h
  split_ifs at h with hv
  · obtain ⟨t, rest, ht, hfrom, h⟩ := readFrom_decode_bind_ok cfg.P.trustedFlag h
    cases h
    refine ⟨t, rest, fun _ => ht, by simpa [hv] using hfrom, ?_⟩
    simp only [hv, ↓reduceIte]
    rfl
  · cases h
    refine ⟨none, st.conn.from_, by simp [hv], by simp [hv], ?_⟩
    simp only [hv, ↓reduceIte]

theorem readRemoteTrustsUs_eq (st : ConnState) {v : Nat} {t : Option TrustedFlag} {rest : Bytes}
    (ht : 35 ≤ getProtocolMinor v → cfg.P.trustedFlag.valid t)
    (hfrom : st.conn.from_ =
      (if 35 ≤ getProtocolMinor v then cfg.P.trustedFlag.encode t else []) ++ rest) :
    readRemoteTrustsUs cfg v st = .ok () { st with conn := { st.conn with
        remoteTrustsUs := if 35 ≤ getProtocolMinor v then t else none, from_ := rest } } := by
  unfold readRemoteTrustsUs
  split_ifs with hv
  · rw [readFrom_decode_bind cfg.P.trustedFlag (ht hv) (by simpa [hv] using hfrom)]
    rfl
  · simp only [hv, ↓reduceIte, List.nil_append] at hfrom
    rw [← hfrom]
    rfl

theorem drainOrRethrow_ok {st st' : ConnState} (h : drainOrRethrow cfg st = .ok () st') :
    ∃ E rest, (∀ e ∈ E, e.valid cfg.P none none) ∧
      st.conn.from_ = encodeEvents cfg.P E ++ Terminal.encode cfg.P .last ++ rest ∧
      st'.conn = { st.conn with from_ := rest, flushed := st.conn.to_.length } := by
  obtain ⟨r, st₁, hp, h⟩ := bind_eq_ok.mp h
  obtain ⟨E, T, rest, hE, -, hfrom, -, hr, hrun⟩ := processStderr_ok cfg.P none none hp
  cases r with
  | some info => cases h
  | none =>
    cases h
    cases T with
    | last => exact ⟨E, rest, hE, hfrom, by rw [forM_perform_conn cfg.P hE hrun]; rfl⟩
    | error info => cases hr
    | legacyError msg status => cases hr

theorem drainOrRethrow_last (st : ConnState) {rest : Bytes}
    (hfrom : st.conn.from_ = Terminal.encode cfg.P .last ++ rest) :
    drainOrRethrow cfg st =
      .ok () { st with conn := { st.conn with from_ := rest, flushed := st.conn.to_.length } } := by
  have hp : processStderr cfg.P none none true st =
      .ok none ((st.flushIf true).setFrom rest) := by
    rw [processStderr_eq, processStderrLoop, bind_ok
      (@processStderrStep_terminal cfg.P none none .last _ _ trivial (by simpa using hfrom))]
    rfl
  unfold drainOrRethrow
  rw [bind_ok hp]
  rfl

/-- A greeting that succeeds has read the daemon's magic word, a version the client accepts,
the fields that version sends, and events up to `LAST`, and nothing more. -/
theorem handshake_ok {st st' : ConnState} (h : handshake cfg st = .ok () st') :
    ∃ v nv t E rest, VersionOk cfg.P v ∧ DaemonInfoValid cfg.P v nv t ∧
      (∀ e ∈ E, e.valid cfg.P none none) ∧
      st.conn.from_ = writeNum cfg.P.workerMagic2 ++ writeNum v ++ daemonInfoBytes cfg.P v nv t ++
        encodeEvents cfg.P E ++ Terminal.encode cfg.P .last ++ rest ∧
      st'.conn = st.conn.afterGreeting cfg.P v nv t rest := by
  rw [handshake_eq] at h
  obtain ⟨v, st₁, h₁, h⟩ := bind_eq_ok.mp h
  obtain ⟨hv, t₂, hfrom₂, rfl⟩ := readDaemonVersion_ok cfg h₁
  simp only [completeGreeting, writeTo_bind] at h
  obtain ⟨u, st₂, h₂, h⟩ := bind_eq_ok.mp h
  obtain ⟨nv, t₃, hnv, hfrom₃, rfl⟩ := readDaemonNixVersion_ok h₂
  obtain ⟨u, st₃, h₃, h⟩ := bind_eq_ok.mp h
  obtain ⟨t, t₄, ht, hfrom₄, rfl⟩ := readRemoteTrustsUs_ok cfg h₃
  obtain ⟨E, rest, hE, hfrom₅, hconn⟩ := drainOrRethrow_ok cfg h
  refine ⟨v, nv, t, E, rest, hv, ⟨hnv, ht⟩, hE, ?_, ?_⟩
  · simp only [ConnState.sentMagic_from] at hfrom₂ hfrom₃ hfrom₄ hfrom₅
    simp [hfrom₂, hfrom₃, hfrom₄, hfrom₅, daemonInfoBytes, List.append_assoc]
  · rw [hconn]
    simp [Connection.afterGreeting, ConnState.sentMagic, clientGreeting, writeBool]

theorem handshake_greeting (st : ConnState) {v : Nat} {nv rest : Bytes} {t : Option TrustedFlag}
    (hv : VersionOk cfg.P v) (hi : DaemonInfoValid cfg.P v nv t)
    (hfrom : st.conn.from_ = writeNum cfg.P.workerMagic2 ++ writeNum v ++
      daemonInfoBytes cfg.P v nv t ++ Terminal.encode cfg.P .last ++ rest) :
    handshake cfg st = .ok () { st with conn := st.conn.afterGreeting cfg.P v nv t rest } := by
  rw [handshake_eq, bind_ok (readDaemonVersion_eq cfg _ hv (by simpa [List.append_assoc] using hfrom))]
  simp only [completeGreeting, writeTo_bind]
  rw [bind_ok (readDaemonNixVersion_eq _ hi.1 (by simp [daemonInfoBytes, List.append_assoc]; rfl)),
    bind_ok (readRemoteTrustsUs_eq cfg _ hi.2 rfl), drainOrRethrow_last cfg _ rfl]
  simp [Connection.afterGreeting, ConnState.sentMagic, clientGreeting, writeBool]

/-- The client writes its version only once the daemon's magic word and version have passed
the checks: however the greeting ends, the client has written its magic word, and the rest
of its greeting exactly when the daemon's stream begins with the magic word and a version the
client accepts. -/
theorem handshake_writes (st : ConnState) :
    (GreetingStart cfg.P st.conn.from_ →
      (resultState (handshake cfg st)).conn.to_ = st.conn.to_ ++ clientGreeting cfg.P) ∧
    (¬GreetingStart cfg.P st.conn.from_ →
      (resultState (handshake cfg st)).conn.to_ = st.conn.to_ ++ writeNum cfg.P.workerMagic1) := by
  rw [handshake_eq]
  constructor
  · rintro ⟨v, t, hv, hfrom⟩
    rw [bind_ok (readDaemonVersion_eq cfg (st.sentMagic cfg.P) hv hfrom), completeGreeting_writes]
    simp [clientGreeting]
  · intro hns
    rcases hr : readDaemonVersion cfg (st.sentMagic cfg.P) with ⟨v, st'⟩ | ⟨e, st'⟩
    · obtain ⟨hv, t, hfrom, -⟩ := readDaemonVersion_ok cfg hr
      exact absurd ⟨v, t, hv, hfrom⟩ hns
    · have := readDaemonVersion_writesNothing cfg (st.sentMagic cfg.P)
      rw [hr] at this
      rw [resultState_bind_error hr]
      simpa using this

theorem setOptions_ok {st st' : ConnState} (h : setOptions cfg st = .ok () st') :
    ∃ E rest, (∀ e ∈ E, e.valid cfg.P none none) ∧
      st.conn.from_ = encodeEvents cfg.P E ++ Terminal.encode cfg.P .last ++ rest ∧
      st'.conn = { st.conn with
        to_ := st.conn.to_ ++ setOptionsRequest cfg
        from_ := rest
        flushed := (st.conn.to_ ++ setOptionsRequest cfg).length } := by
  rw [setOptions, writeTo_bind] at h
  exact drainOrRethrow_ok cfg h

theorem setOptions_last (st : ConnState) {rest : Bytes}
    (hfrom : st.conn.from_ = Terminal.encode cfg.P .last ++ rest) :
    setOptions cfg st = .ok () { st with conn := { st.conn with
      to_ := st.conn.to_ ++ setOptionsRequest cfg
      from_ := rest
      flushed := (st.conn.to_ ++ setOptionsRequest cfg).length } } := by
  rw [setOptions, writeTo_bind,
    drainOrRethrow_last cfg { st with conn := { st.conn with to_ := st.conn.to_ ++ setOptionsRequest cfg } }
      hfrom]

theorem initConnection_eq (st : ConnState) : initConnection cfg st =
    match handshake cfg st with
    | .ok () st₁ => setOptions cfg st₁
    | .error e st₁ => .error (if e.isError then Exn.fail (openErrorMsg cfg e) else e) st₁ := by
  simp only [initConnection, run_bind, run_tryCatch]
  rcases handshake cfg st with ⟨⟨⟩, st₁⟩ | ⟨e, st₁⟩
  · rfl
  · by_cases he : e.isError <;> simp [he]

theorem factory_eq (s : StoreState) : factory cfg s =
    if s.failed then .error (Exn.fail (previouslyFailedMsg cfg)) s
    else match cfg.openConnection s.opened with
      | .error e => .error e { s with opened := s.opened + 1, failed := true }
      | .ok c₀ => match initConnection cfg ⟨c₀, s.fx⟩ with
        | .ok () st => .ok st.conn { s with opened := s.opened + 1, fx := st.fx }
        | .error e st => .error e { s with opened := s.opened + 1, fx := st.fx, failed := true } := by
  unfold factory openConnectionWrapper
  by_cases hf : s.failed
  · simp [hf]
  · rcases ho : cfg.openConnection s.opened with e | c₀
    · simp [hf, ho]
    · rcases hi : initConnection cfg ⟨c₀, s.fx⟩ with ⟨⟨⟩, st⟩ | ⟨e, st⟩ <;>
        simp [hf, ho, hi, onConnection]

def Connection.afterOpening (c : Connection) (v : Nat) (nixVersion : Bytes)
    (trust : Option TrustedFlag) (rest : Bytes) : Connection :=
  { c.afterGreeting cfg.P v nixVersion trust rest with
    to_ := c.to_ ++ clientGreeting cfg.P ++ setOptionsRequest cfg
    flushed := (c.to_ ++ clientGreeting cfg.P ++ setOptionsRequest cfg).length }

@[simp] theorem Connection.afterOpening_daemonVersion (c : Connection) (v : Nat) (nv rest : Bytes)
    (t : Option TrustedFlag) : (c.afterOpening cfg v nv t rest).daemonVersion = v := rfl

/-- The factory hands out a connection only if the daemon sent its magic word, a version the
client accepts, the Nix version and trust flag that version calls for, and two event streams
ended by `LAST`; the connection is then the one opened, after both exchanges. -/
theorem factory_ok {s s' : StoreState} {c : Connection} (h : factory cfg s = .ok c s') :
    s.failed = false ∧ ∃ c₀ v nv t E₁ E₂ rest, cfg.openConnection s.opened = .ok c₀ ∧
      VersionOk cfg.P v ∧ DaemonInfoValid cfg.P v nv t ∧
      (∀ e ∈ E₁ ++ E₂, e.valid cfg.P none none) ∧
      c₀.from_ = greetingBytes cfg.P v nv t E₁ E₂ ++ rest ∧
      c = c₀.afterOpening cfg v nv t rest ∧ s' = { s with opened := s.opened + 1, fx := s'.fx } := by
  rw [factory_eq] at h
  split_ifs at h with hf
  split at h
  · cases h
  rename_i c₀ ho
  split at h
  · rename_i st hi
    cases h
    rw [initConnection_eq] at hi
    split at hi
    · rename_i st₁ hh
      obtain ⟨v, nv, t, E₁, rest₁, hv, hinfo, hE₁, hfrom₁, hconn₁⟩ := handshake_ok cfg hh
      obtain ⟨E₂, rest, hE₂, hfrom₂, hconn₂⟩ := setOptions_ok cfg hi
      rw [hconn₁] at hfrom₂ hconn₂
      refine ⟨by simpa using hf, c₀, v, nv, t, E₁, E₂, rest, ho, hv, hinfo,
        fun e he => (List.mem_append.mp he).elim (hE₁ e) (hE₂ e), ?_, ?_, rfl⟩
      · simp only [Connection.afterGreeting] at hfrom₁ hfrom₂
        simp [hfrom₁, hfrom₂, greetingBytes]
      · rw [hconn₂]
        simp [Connection.afterOpening, Connection.afterGreeting]
    · cases hi
  · cases h

/-- How a factory call raises: at once after an earlier failure; with the exception of
`openConnection` as it is; with an `Error` of the greeting wrapped in the store's message
(other exceptions of the greeting as they are); or with the exception of `setOptions` as it
is. In every case the store is failed afterwards. -/
theorem factory_error {s s' : StoreState} {e : Exn} (h : factory cfg s = .error e s') :
    s'.failed = true ∧
      ((s.failed = true ∧ e = Exn.fail (previouslyFailedMsg cfg) ∧ s' = s) ∨
       (s.failed = false ∧ cfg.openConnection s.opened = .error e) ∨
       (s.failed = false ∧ ∃ c₀ e₀ st, cfg.openConnection s.opened = .ok c₀ ∧
          handshake cfg ⟨c₀, s.fx⟩ = .error e₀ st ∧
          e = if e₀.isError then Exn.fail (openErrorMsg cfg e₀) else e₀) ∨
       (s.failed = false ∧ ∃ c₀ st st', cfg.openConnection s.opened = .ok c₀ ∧
          handshake cfg ⟨c₀, s.fx⟩ = .ok () st ∧ setOptions cfg st = .error e st')) := by
  rw [factory_eq] at h
  split_ifs at h with hf
  · cases h
    exact ⟨hf, .inl ⟨hf, rfl, rfl⟩⟩
  simp only [Bool.not_eq_true] at hf
  split at h
  · rename_i e₀ ho
    cases h
    exact ⟨rfl, .inr (.inl ⟨hf, ho⟩)⟩
  rename_i c₀ ho
  split at h
  · cases h
  rename_i e₁ st hi
  cases h
  refine ⟨rfl, .inr (.inr ?_)⟩
  rw [initConnection_eq] at hi
  split at hi
  · rename_i st₁ hh
    exact .inr ⟨hf, c₀, st₁, st, ho, hh, hi⟩
  · rename_i e₀ st₁ hh
    cases hi
    exact .inl ⟨hf, c₀, e₀, _, ho, hh, rfl⟩

theorem factory_greeting {s : StoreState} {c₀ : Connection} {v : Nat} {nv rest : Bytes}
    {t : Option TrustedFlag} (hf : s.failed = false) (ho : cfg.openConnection s.opened = .ok c₀)
    (hv : VersionOk cfg.P v) (hi : DaemonInfoValid cfg.P v nv t)
    (hfrom : c₀.from_ = greetingBytes cfg.P v nv t [] [] ++ rest) :
    factory cfg s = .ok (c₀.afterOpening cfg v nv t rest) { s with opened := s.opened + 1 } := by
  have hh := @handshake_greeting cfg ⟨c₀, s.fx⟩ v nv (Terminal.encode cfg.P .last ++ rest) t hv hi
    (by simp [hfrom, greetingBytes, encodeEvents])
  rw [factory_eq, if_neg (by simp [hf]), ho]
  simp only [initConnection_eq, hh]
  rw [setOptions_last cfg _ rfl]
  simp [Connection.afterOpening, Connection.afterGreeting]

theorem factory_ok_frame {s s' : StoreState} {c : Connection} (h : factory cfg s = .ok c s') :
    s'.pool = s.pool ∧ s'.now = s.now := by
  obtain ⟨-, -, -, -, -, -, -, -, -, -, -, -, -, -, hs⟩ := factory_ok cfg h
  rw [hs]
  exact ⟨rfl, rfl⟩

end Handshake

section Get
variable (cfg : Config)

theorem poolGet_eq (s : StoreState) : poolGet cfg s =
    match s.pool.get (validator cfg s.now) with
    | (.idle c, p) => .ok c { s with pool := p }
    | (.create, p) => match factory cfg { s with pool := p } with
      | .ok c s' => .ok c s'
      | .error e s' => .error e { s' with pool := s'.pool.cancel }
    | (.blocked, p) => .error .blocked { s with pool := p } := by
  unfold poolGet
  simp only [run_get_bind]
  rcases s.pool.get (validator cfg s.now) with ⟨_ | _ | _, p⟩
  · rfl
  · simp only [run_bind, run_set, run_tryCatch]
    rcases factory cfg { s with pool := p } with ⟨c, s'⟩ | ⟨e, s'⟩ <;> rfl
  · rfl

theorem poolGet_ok {s s₁ : StoreState} {c : Connection} (h : poolGet cfg s = .ok c s₁) :
    0 < s₁.pool.inUse ∧ s₁.now = s.now := by
  rw [poolGet_eq] at h
  split at h
  · rename_i c' p hg
    cases h
    exact ⟨by rw [Pool.get_inUse _ hg (by simp)]; omega, rfl⟩
  · rename_i p hg
    split at h
    · rename_i c' s' hf
      cases h
      obtain ⟨hp, hn⟩ := factory_ok_frame cfg hf
      exact ⟨by rw [hp, Pool.get_inUse _ hg (by simp)]; omega, hn⟩
    · cases h
  · cases h

/-- A connection given back live and unpoisoned is the one the next `get` hands out, and the
pool is as it was before it was given back. -/
theorem poolGet_giveBack {s₁ : StoreState} {c : Connection}
    (hlive : validator cfg s₁.now c = true) (hin : 0 < s₁.pool.inUse) :
    poolGet cfg (s₁.giveBack cfg c false) = .ok c s₁ := by
  rw [poolGet_eq]
  simp only [StoreState.giveBack, Pool.get_release _ hlive]
  congr
  rw [Nat.sub_add_cancel hin]

theorem withConnection_ok_get {α : Type} {body : HandleM α} {s s₁ : StoreState} {c : Connection}
    (hget : poolGet cfg s = .ok c s₁) :
    withConnection cfg body s = match body ⟨s₁, c, false⟩ with
      | .ok a hs => .ok a (hs.store.giveBack cfg hs.conn false)
      | .error e hs => .error e (hs.store.giveBack cfg hs.conn !hs.daemonException) := by
  unfold withConnection
  rw [run_bind, hget]
  try rfl

theorem withConnection_error_get {α : Type} {body : HandleM α} {s s' : StoreState} {e : Exn}
    (hget : poolGet cfg s = .error e s') : withConnection cfg body s = .error e s' := by
  simp only [withConnection, run_bind, hget]

theorem getProtocol_ok_get {s s₁ : StoreState} {c : Connection} (hget : poolGet cfg s = .ok c s₁) :
    getProtocol cfg s = .ok c.daemonVersion (s₁.giveBack cfg c false) := by
  simp only [getProtocol, withPoolHandle, run_bind, hget]
  rfl

theorem poolGet_full {s : StoreState} (hidle : s.pool.idle = []) (hfull : s.pool.max ≤ s.pool.inUse) :
    poolGet cfg s = .error .blocked s := by
  have hp : s.pool.get (validator cfg s.now) = (.blocked, s.pool) := by
    simp only [Pool.get, hidle, Pool.popLive, if_neg (Nat.not_lt.mpr hfull)]
    rw [← hidle]
  simp only [poolGet_eq, hp]

theorem poolGet_create {s s' : StoreState} {c : Connection} (hidle : s.pool.idle = [])
    (hroom : s.pool.inUse < s.pool.max)
    (hf : factory cfg { s with pool := { s.pool with inUse := s.pool.inUse + 1 } } = .ok c s') :
    poolGet cfg s = .ok c s' := by
  have hp : s.pool.get (validator cfg s.now) =
      (.create, { s.pool with inUse := s.pool.inUse + 1 }) := by
    simp only [Pool.get, hidle, Pool.popLive, if_pos hroom]
  simp only [poolGet_eq, hp, hf]

end Get

end NixRemoteStore
