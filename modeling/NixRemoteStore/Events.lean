import NixRemoteStore.Connection

/-! The grammar of the event stream, and the event loop read against it: the loop accepts
exactly the encodings of well-formed streams, consumes nothing past their end, and acts as
the events performed in order. -/

namespace NixRemoteStore

open Wire

section Fields
variable (P : Protocol)

def encodeField : Field → Bytes
  | .int n => writeNum (P.fieldType .tInt) ++ writeNum n
  | .string s => writeNum (P.fieldType .tString) ++ writeString s

def Field.valid : Field → Prop
  | .int n => n ≤ u64Max
  | .string s => s.length ≤ u64Max

theorem readInt_writeNum {n : Nat} (hn : n ≤ u32Max) (rest : Bytes) :
    readInt (writeNum n ++ rest) = .ok n rest := readNum_writeNum hn u32Max_le rest

theorem readField_encodeField {f : Field} (hf : f.valid) (rest : Bytes) :
    readField P (encodeField P f ++ rest) = .ok f rest := by
  cases f with
  | int n =>
    simp [readField, encodeField, readInt_writeNum (P.fieldType_le _),
      readNum_writeNum (show n ≤ u64Max from hf) le_rfl]
  | string s =>
    simp [readField, encodeField, readInt_writeNum (P.fieldType_le _),
      readString_writeString (show s.length ≤ u64Max from hf)]

theorem readField_ok {s r : Bytes} {f : Field} (h : readField P s = .ok f r) :
    f.valid ∧ s = encodeField P f ++ r := by
  obtain ⟨type, t, -, rfl, h₁⟩ := Codec.u32.decode_bind_ok h
  by_cases hi : type = P.fieldType .tInt
  · subst hi
    simp only [if_true] at h₁
    obtain ⟨n, t', hn, rfl, h₂⟩ := Codec.u64.decode_bind_ok h₁
    simp only [run_pure, EStateM.Result.ok.injEq] at h₂
    obtain ⟨rfl, rfl⟩ := h₂
    exact ⟨hn, by simp [encodeField, Codec.u64, Codec.u32, Codec.num]⟩
  · by_cases hs : type = P.fieldType .tString
    · subst hs
      simp only [hi, if_false, if_true] at h₁
      obtain ⟨x, t', hx, rfl, h₂⟩ := Codec.string.decode_bind_ok h₁
      simp only [run_pure, EStateM.Result.ok.injEq] at h₂
      obtain ⟨rfl, rfl⟩ := h₂
      exact ⟨hx, by simp [encodeField, Codec.string, Codec.u32, Codec.num]⟩
    · simp [hi, hs] at h₁

theorem readFieldsN_encode {fs : List Field} (hv : ∀ f ∈ fs, f.valid) (rest : Bytes) :
    readFieldsN P fs.length ((fs.map (encodeField P)).flatten ++ rest) = .ok fs rest := by
  induction fs with
  | nil => rfl
  | cons f fs ih =>
    simp only [List.mem_cons, forall_eq_or_imp] at hv
    simp [readFieldsN, List.append_assoc, readField_encodeField P hv.1, ih hv.2]

theorem readFieldsN_ok {n : Nat} {s r : Bytes} {fs : List Field}
    (h : readFieldsN P n s = .ok fs r) :
    fs.length = n ∧ (∀ f ∈ fs, f.valid) ∧ s = (fs.map (encodeField P)).flatten ++ r := by
  induction n generalizing s fs with
  | zero =>
    simp only [readFieldsN, run_pure, EStateM.Result.ok.injEq] at h
    obtain ⟨rfl, rfl⟩ := h
    simp
  | succ n ih =>
    obtain ⟨f, t, hf, h₁⟩ := bind_eq_ok.mp h
    obtain ⟨fs', t', hfs, h₂⟩ := bind_eq_ok.mp h₁
    simp only [run_pure, EStateM.Result.ok.injEq] at h₂
    obtain ⟨rfl, rfl⟩ := h₂
    obtain ⟨hv, rfl⟩ := readField_ok P hf
    obtain ⟨hlen, hvs, rfl⟩ := ih hfs
    exact ⟨by simp [hlen], by simpa [hv] using hvs, by simp⟩

def encodeFields (fs : List Field) : Bytes :=
  writeNum fs.length ++ (fs.map (encodeField P)).flatten

@[reducible] def Codec.fields : Codec (List Field) where
  encode := encodeFields P
  decode := readFields P
  valid fs := fs.length ≤ u32Max ∧ ∀ f ∈ fs, f.valid
  decode_encode fs rest h := by
    simp [readFields, encodeFields, readInt_writeNum h.1, readFieldsN_encode P h.2]
  decode_sound h := by
    obtain ⟨n, t, hn, rfl, h₁⟩ := Codec.u32.decode_bind_ok h
    obtain ⟨rfl, hv, rfl⟩ := readFieldsN_ok P h₁
    exact ⟨⟨hn, hv⟩, by simp [encodeFields, Codec.u32, Codec.num]⟩

end Fields

/-- A non-terminal event of the stream (`STDERR_WRITE` ... `STDERR_RESULT`). -/
inductive Event
  | write (s : Bytes)
  | read (len : Nat)
  | next (s : Bytes)
  | startActivity (act lvl type : Nat) (s : Bytes) (fields : List Field) (parent : Nat)
  | stopActivity (act : Nat)
  | result (act type : Nat) (fields : List Field)

/-- The end of an event stream: `LAST`, or an `ERROR` record, structured (minor 26 on) or as
message and status (before). -/
inductive Terminal
  | last
  | error (info : ErrorInfo)
  | legacyError (msg : Bytes) (status : Nat)

section Grammar
variable (P : Protocol) (sink : Option Sink) (source : Option Source)

def Event.encode : Event → Bytes
  | .write s => writeNum (P.stderr .write) ++ writeString s
  | .read len => writeNum (P.stderr .read) ++ writeNum len
  | .next s => writeNum (P.stderr .next) ++ writeString s
  | .startActivity act lvl type s fields parent =>
    writeNum (P.stderr .startActivity) ++ (writeNum act ++ (writeNum lvl ++ (writeNum type ++
      (writeString s ++ (encodeFields P fields ++ writeNum parent)))))
  | .stopActivity act => writeNum (P.stderr .stopActivity) ++ writeNum act
  | .result act type fields =>
    writeNum (P.stderr .result) ++ (writeNum act ++ (writeNum type ++ encodeFields P fields))

def Terminal.encode : Terminal → Bytes
  | .last => writeNum (P.stderr .last)
  | .error info => writeNum (P.stderr .error) ++ P.errorRecord.encode info
  | .legacyError msg status => writeNum (P.stderr .error) ++ (writeString msg ++ writeNum status)

def encodeEvents (es : List Event) : Bytes := (es.map (Event.encode P)).flatten

/-- Well-formed events: every number fits the type the code reads it as, and `WRITE` and
`READ` occur only when the caller passed a sink or a source. -/
def Event.valid : Event → Prop
  | .write s => s.length ≤ u64Max ∧ sink.isSome
  | .read len => len ≤ u64Max ∧ source.isSome
  | .next s => s.length ≤ u64Max
  | .startActivity act lvl type s fields parent =>
    act ≤ u64Max ∧ lvl ≤ u32Max ∧ type ≤ u32Max ∧ s.length ≤ u64Max ∧
      (Codec.fields P).valid fields ∧ parent ≤ u64Max
  | .stopActivity act => act ≤ u64Max
  | .result act type fields => act ≤ u64Max ∧ type ≤ u32Max ∧ (Codec.fields P).valid fields

def Terminal.valid (minor : Nat) : Terminal → Prop
  | .last => True
  | .error info => 26 ≤ minor ∧ P.errorRecord.valid info
  | .legacyError msg status => minor < 26 ∧ msg.length ≤ u64Max ∧ status ≤ u32Max

/-- What the event loop returns at the end of a stream: no error after `LAST`, the
decoded error after `ERROR`. -/
def Terminal.result : Terminal → Option ErrorInfo
  | .last => none
  | .error info => some info
  | .legacyError msg status => some (ErrorInfo.ofMsg msg status)

/-- What an event is for: a `WRITE` payload goes to the sink, a `READ` is answered with one
length-prefixed chunk from the source and a flush, a log event goes to the logger. -/
def Event.perform : Event → ConnM Unit
  | .write s => match sink with
    | none => throw (Exn.fail (txt "no sink"))
    | some sink => callSink sink s
  | .read len => match source with
    | none => throw (Exn.fail (txt "no source"))
    | some source => do
      let chunk ← callSource source len
      writeTo (writeString chunk)
      flush
  | .next s => log (.printError (P.chomp s))
  | .startActivity act lvl type s fields parent => log (.startActivity act lvl type s fields parent)
  | .stopActivity act => log (.stopActivity act)
  | .result act type fields => log (.result act type fields)

theorem processStderrStep_event {e : Event} (he : e.valid P sink source) {st : ConnState}
    {t : Bytes} (hst : st.conn.from_ = e.encode P ++ t) :
    processStderrStep P sink source st =
      (e.perform P sink source >>= fun _ => pure Turn.more) (st.setFrom t) := by
  rw [← ConnState.setFrom_self st, hst, ConnState.setFrom_setFrom]
  unfold processStderrStep
  cases e with
  | write s =>
    simp only [Event.encode, List.append_assoc]
    rw [readFrom_decode_setFrom Codec.u64 st (P.stderr_le _)]
    simp only [if_true]
    rw [readFrom_decode_setFrom Codec.string st he.1]
    cases sink <;> rfl
  | read len =>
    simp only [Event.encode, List.append_assoc]
    rw [readFrom_decode_setFrom Codec.u64 st (P.stderr_le _)]
    simp only [P.stderr_eq_iff, reduceCtorEq, if_false, if_true]
    cases source with
    | none => simp [Event.valid] at he
    | some src =>
      dsimp only
      rw [readFrom_decode_setFrom Codec.u64 st he.1]
      simp only [Event.perform, bind_assoc]
  | next s =>
    simp only [Event.encode, List.append_assoc]
    rw [readFrom_decode_setFrom Codec.u64 st (P.stderr_le _)]
    simp only [P.stderr_eq_iff, reduceCtorEq, if_false, if_true]
    rw [readFrom_decode_setFrom Codec.string st he]
    rfl
  | startActivity act lvl type s fields parent =>
    obtain ⟨h1, h2, h3, h4, h5, h6⟩ := he
    simp only [Event.encode, List.append_assoc]
    rw [readFrom_decode_setFrom Codec.u64 st (P.stderr_le _)]
    simp only [P.stderr_eq_iff, reduceCtorEq, if_false, if_true]
    rw [readFrom_decode_setFrom Codec.u64 st h1, readFrom_decode_setFrom Codec.u32 st h2,
      readFrom_decode_setFrom Codec.u32 st h3, readFrom_decode_setFrom Codec.string st h4,
      readFrom_decode_setFrom (Codec.fields P) st h5, readFrom_decode_setFrom Codec.u64 st h6]
    rfl
  | stopActivity act =>
    simp only [Event.encode, List.append_assoc]
    rw [readFrom_decode_setFrom Codec.u64 st (P.stderr_le _)]
    simp only [P.stderr_eq_iff, reduceCtorEq, if_false, if_true]
    rw [readFrom_decode_setFrom Codec.u64 st he]
    rfl
  | result act type fields =>
    obtain ⟨h1, h2, h3⟩ := he
    simp only [Event.encode, List.append_assoc]
    rw [readFrom_decode_setFrom Codec.u64 st (P.stderr_le _)]
    simp only [P.stderr_eq_iff, reduceCtorEq, if_false, if_true]
    rw [readFrom_decode_setFrom Codec.u64 st h1, readFrom_decode_setFrom Codec.u32 st h2,
      readFrom_decode_setFrom (Codec.fields P) st h3]
    rfl

theorem processStderrStep_terminal {T : Terminal} {st : ConnState} {t : Bytes}
    (hT : T.valid P (getProtocolMinor st.conn.daemonVersion)) (hst : st.conn.from_ = T.encode P ++ t) :
    processStderrStep P sink source st = .ok (.done T.result) (st.setFrom t) := by
  rw [← ConnState.setFrom_self st, hst, ConnState.setFrom_setFrom]
  unfold processStderrStep
  cases T with
  | last =>
    rw [Terminal.encode, readFrom_decode_setFrom Codec.u64 st (P.stderr_le _)]
    simp [Terminal.result]
  | error info =>
    simp only [Terminal.encode, List.append_assoc]
    rw [readFrom_decode_setFrom Codec.u64 st (P.stderr_le _)]
    simp only [P.stderr_eq_iff, reduceCtorEq, if_false, if_true, run_get_bind,
      ConnState.setFrom_daemonVersion, hT.1]
    rw [readFrom_decode_setFrom P.errorRecord st hT.2]
    rfl
  | legacyError msg status =>
    obtain ⟨h1, h2, h3⟩ := hT
    simp only [Terminal.encode, List.append_assoc]
    rw [readFrom_decode_setFrom Codec.u64 st (P.stderr_le _)]
    simp only [P.stderr_eq_iff, reduceCtorEq, if_false, if_true, run_get_bind,
      ConnState.setFrom_daemonVersion, Nat.not_le.mpr h1]
    rw [readFrom_decode_setFrom Codec.string st h2, readFrom_decode_setFrom Codec.u32 st h3]
    rfl

theorem processStderrStep_ok {st st' : ConnState} {turn : Turn}
    (h : processStderrStep P sink source st = .ok turn st') :
    (turn = .more ∧ ∃ (e : Event) (t : Bytes), e.valid P sink source ∧
        st.conn.from_ = e.encode P ++ t ∧ e.perform P sink source (st.setFrom t) = .ok () st') ∨
    (∃ (T : Terminal) (t : Bytes), T.valid P (getProtocolMinor st.conn.daemonVersion) ∧
        turn = .done T.result ∧ st.conn.from_ = T.encode P ++ t ∧ st' = st.setFrom t) := by
  unfold processStderrStep at h
  obtain ⟨msg, t₀, -, hst, h₀⟩ := readFrom_decode_bind_ok Codec.u64 h
  clear h
  by_cases hm : ∃ m, msg = P.stderr m
  · obtain ⟨m, rfl⟩ := hm
    cases m with
    | write =>
      simp only [if_true] at h₀
      obtain ⟨s, t₁, hs, rfl, h₁⟩ := readFrom_decode_setFrom_ok Codec.string h₀
      cases sink with
      | none => simp at h₁
      | some sk =>
        obtain ⟨rfl, hsk⟩ := bind_const_ok h₁
        exact .inl ⟨rfl, .write s, t₁, ⟨hs, rfl⟩, by rw [hst]; simp [Event.encode], hsk⟩
    | read =>
      simp only [P.stderr_eq_iff, reduceCtorEq, if_false, if_true] at h₀
      cases source with
      | none => simp at h₀
      | some src =>
        obtain ⟨len, t₁, hl, rfl, h₁⟩ := readFrom_decode_setFrom_ok Codec.u64 h₀
        have h₂ : (Event.perform P sink (some src) (.read len) >>= fun _ => pure Turn.more)
            (st.setFrom t₁) = .ok turn st' := by simpa only [Event.perform, bind_assoc] using h₁
        obtain ⟨rfl, hp⟩ := bind_const_ok h₂
        exact .inl ⟨rfl, .read len, t₁, ⟨hl, rfl⟩, by rw [hst]; simp [Event.encode], hp⟩
    | error =>
      simp only [P.stderr_eq_iff, reduceCtorEq, if_false, if_true, run_get_bind,
        ConnState.setFrom_daemonVersion] at h₀
      by_cases hv : 26 ≤ getProtocolMinor st.conn.daemonVersion
      · simp only [hv, if_true] at h₀
        obtain ⟨info, t₁, hi, rfl, h₁⟩ := readFrom_decode_setFrom_ok P.errorRecord h₀
        simp only [run_pure, EStateM.Result.ok.injEq] at h₁
        obtain ⟨rfl, rfl⟩ := h₁
        exact .inr ⟨.error info, t₁, ⟨hv, hi⟩, rfl, by rw [hst]; simp [Terminal.encode], rfl⟩
      · simp only [hv, if_false] at h₀
        obtain ⟨msg, t₁, hmsg, rfl, h₁⟩ := readFrom_decode_setFrom_ok Codec.string h₀
        obtain ⟨status, t₂, hs, rfl, h₂⟩ := readFrom_decode_setFrom_ok Codec.u32 h₁
        simp only [run_pure, EStateM.Result.ok.injEq] at h₂
        obtain ⟨rfl, rfl⟩ := h₂
        exact .inr ⟨.legacyError msg status, t₂, ⟨Nat.not_le.mp hv, hmsg, hs⟩, rfl,
          by rw [hst]; simp [Terminal.encode], rfl⟩
    | next =>
      simp only [P.stderr_eq_iff, reduceCtorEq, if_false, if_true] at h₀
      obtain ⟨s, t₁, hs, rfl, h₁⟩ := readFrom_decode_setFrom_ok Codec.string h₀
      obtain ⟨rfl, hl⟩ := bind_const_ok h₁
      exact .inl ⟨rfl, .next s, t₁, hs, by rw [hst]; simp [Event.encode], hl⟩
    | startActivity =>
      simp only [P.stderr_eq_iff, reduceCtorEq, if_false, if_true] at h₀
      obtain ⟨act, t₁, h1, rfl, h₁⟩ := readFrom_decode_setFrom_ok Codec.u64 h₀
      obtain ⟨lvl, t₂, h2, rfl, h₂⟩ := readFrom_decode_setFrom_ok Codec.u32 h₁
      obtain ⟨type, t₃, h3, rfl, h₃⟩ := readFrom_decode_setFrom_ok Codec.u32 h₂
      obtain ⟨s, t₄, h4, rfl, h₄⟩ := readFrom_decode_setFrom_ok Codec.string h₃
      obtain ⟨fields, t₅, h5, rfl, h₅⟩ := readFrom_decode_setFrom_ok (Codec.fields P) h₄
      obtain ⟨parent, t₆, h6, rfl, h₆⟩ := readFrom_decode_setFrom_ok Codec.u64 h₅
      obtain ⟨rfl, hl⟩ := bind_const_ok h₆
      exact .inl ⟨rfl, .startActivity act lvl type s fields parent, t₆,
        ⟨h1, h2, h3, h4, h5, h6⟩, by rw [hst]; simp [Event.encode], hl⟩
    | stopActivity =>
      simp only [P.stderr_eq_iff, reduceCtorEq, if_false, if_true] at h₀
      obtain ⟨act, t₁, h1, rfl, h₁⟩ := readFrom_decode_setFrom_ok Codec.u64 h₀
      obtain ⟨rfl, hl⟩ := bind_const_ok h₁
      exact .inl ⟨rfl, .stopActivity act, t₁, h1, by rw [hst]; simp [Event.encode], hl⟩
    | result =>
      simp only [P.stderr_eq_iff, reduceCtorEq, if_false, if_true] at h₀
      obtain ⟨act, t₁, h1, rfl, h₁⟩ := readFrom_decode_setFrom_ok Codec.u64 h₀
      obtain ⟨type, t₂, h2, rfl, h₂⟩ := readFrom_decode_setFrom_ok Codec.u32 h₁
      obtain ⟨fields, t₃, h3, rfl, h₃⟩ := readFrom_decode_setFrom_ok (Codec.fields P) h₂
      obtain ⟨rfl, hl⟩ := bind_const_ok h₃
      exact .inl ⟨rfl, .result act type fields, t₃, ⟨h1, h2, h3⟩,
        by rw [hst]; simp [Event.encode], hl⟩
    | last =>
      simp only [P.stderr_eq_iff, reduceCtorEq, if_false, if_true, run_pure,
        EStateM.Result.ok.injEq] at h₀
      obtain ⟨rfl, rfl⟩ := h₀
      exact .inr ⟨.last, t₀, trivial, rfl, by rw [hst]; simp [Terminal.encode], rfl⟩
  · push_neg at hm
    rw [if_neg (hm _), if_neg (hm _), if_neg (hm _), if_neg (hm _), if_neg (hm _),
      if_neg (hm _), if_neg (hm _), if_neg (hm _)] at h₀
    cases h₀

theorem perform_frame {e : Event} {st st' : ConnState}
    (h : e.perform P sink source st = .ok () st') :
    st'.conn.from_ = st.conn.from_ ∧ st'.conn.daemonVersion = st.conn.daemonVersion ∧
      ∀ r, e.perform P sink source (st.setFrom r) = .ok () (st'.setFrom r) := by
  cases e with
  | write s =>
    cases sink with
    | none => cases h
    | some sk =>
      cases hs : sk.raises st.fx.sinkWrites s with
      | some x => simp [Event.perform, callSink, hs] at h
      | none =>
        simp only [Event.perform, callSink, hs, EStateM.Result.ok.injEq, true_and] at h
        subst h
        exact ⟨rfl, rfl, fun r => by simp [Event.perform, callSink, hs, ConnState.setFrom]⟩
  | read len =>
    cases source with
    | none => cases h
    | some src =>
      cases hr : src.read st.fx.sourceChunks len with
      | error x => simp [Event.perform, callSource, hr] at h
      | ok b =>
        simp only [Event.perform, run_bind, callSource, hr, writeTo, flush,
          EStateM.Result.ok.injEq, true_and] at h
        subst h
        exact ⟨rfl, rfl, fun r => by
          simp [Event.perform, callSource, hr, writeTo, flush, ConnState.setFrom]⟩
  | next | startActivity | stopActivity | result =>
    simp only [Event.perform, log, EStateM.Result.ok.injEq, true_and] at h
    subst h
    exact ⟨rfl, rfl, fun r => rfl⟩

theorem forM_perform_from {E : List Event} {st st' : ConnState}
    (h : E.forM (Event.perform P sink source) st = .ok () st') : st'.conn.from_ = st.conn.from_ := by
  induction E generalizing st with
  | nil =>
    simp only [List.forM_nil', run_pure, EStateM.Result.ok.injEq, true_and] at h
    rw [h]
  | cons e E ih =>
    rw [List.forM_cons'] at h
    obtain ⟨u, s₁, h₁, h₂⟩ := bind_eq_ok.mp h
    rw [ih h₂, (perform_frame P sink source h₁).1]

theorem encodeEvents_length_ge (E : List Event) : E.length ≤ (encodeEvents P E).length := by
  induction E with
  | nil => simp [encodeEvents]
  | cons e E ih =>
    have he : 8 ≤ (e.encode P).length := by cases e <;> simp [Event.encode]
    simp only [encodeEvents, List.map_cons, List.flatten_cons, List.length_append,
      List.length_cons] at ih ⊢
    omega

/-- A stream of well-formed events and a well-formed end is read to its end, the events
performed in order. -/
theorem processStderrLoop_events {E : List Event} {T : Terminal}
    (hE : ∀ e ∈ E, e.valid P sink source) {fuel : Nat} {st st' : ConnState} {rest : Bytes}
    (hT : T.valid P (getProtocolMinor st.conn.daemonVersion)) (hfuel : E.length < fuel)
    (hst : st.conn.from_ = encodeEvents P E ++ T.encode P ++ rest)
    (hrun : E.forM (Event.perform P sink source) (st.setFrom rest) = .ok () st') :
    processStderrLoop P sink source fuel st = .ok T.result st' := by
  induction E generalizing fuel st with
  | nil =>
    obtain ⟨f, rfl⟩ : ∃ f, fuel = f + 1 := ⟨fuel - 1, by simp at hfuel; omega⟩
    simp only [List.forM_nil', run_pure, EStateM.Result.ok.injEq, true_and] at hrun
    subst hrun
    simp [processStderrLoop, processStderrStep_terminal P sink source hT (by simpa [encodeEvents] using hst)]
  | cons e E ih =>
    obtain ⟨f, rfl⟩ : ∃ f, fuel = f + 1 := ⟨fuel - 1, by simp at hfuel; omega⟩
    simp only [List.forM_cons'] at hrun
    obtain ⟨u, s₁, he, hrest⟩ := bind_eq_ok.mp hrun
    simp only [List.mem_cons, forall_eq_or_imp] at hE
    obtain ⟨hfrom, hver, hframe⟩ := perform_frame P sink source he
    have hstep := processStderrStep_event P sink source hE.1
      (show st.conn.from_ = e.encode P ++ (encodeEvents P E ++ T.encode P ++ rest) by
        simp [hst, encodeEvents])
    simp only [ConnState.setFrom_setFrom] at hframe
    rw [processStderrLoop, bind_ok (by rw [hstep, bind_ok (hframe _)]; rfl)]
    simp only [ConnState.setFrom_from] at hfrom
    apply ih hE.2 (by simpa [hver] using hT) (by simpa using hfuel) (by simp)
    simpa [← hfrom] using hrest

/-- Whatever the loop accepts is a stream of well-formed events and a well-formed end, and
the loop has consumed exactly it and performed its events in order. -/
theorem processStderrLoop_ok {fuel : Nat} {st st' : ConnState} {r : Option ErrorInfo}
    (h : processStderrLoop P sink source fuel st = .ok r st') :
    ∃ (E : List Event) (T : Terminal) (rest : Bytes), (∀ e ∈ E, e.valid P sink source) ∧
      T.valid P (getProtocolMinor st.conn.daemonVersion) ∧
      st.conn.from_ = encodeEvents P E ++ T.encode P ++ rest ∧ r = T.result ∧
      E.forM (Event.perform P sink source) (st.setFrom rest) = .ok () st' := by
  induction fuel generalizing st with
  | zero => simp [processStderrLoop] at h
  | succ f ih =>
    obtain ⟨turn, s₁, hstep, h₁⟩ := bind_eq_ok.mp h
    rcases processStderrStep_ok P sink source hstep with
      ⟨rfl, e, t, he, hst, hp⟩ | ⟨T, t, hT, rfl, hst, rfl⟩
    · obtain ⟨E, T, rest, hE, hT, hs₁, rfl, hrun⟩ := ih h₁
      obtain ⟨hfrom, hver, hframe⟩ := perform_frame P sink source hp
      simp only [ConnState.setFrom_from, ConnState.setFrom_daemonVersion,
        ConnState.setFrom_setFrom] at hfrom hver hframe
      refine ⟨e :: E, T, rest, ?_, by rwa [← hver], ?_, rfl, ?_⟩
      · simpa [he] using hE
      · rw [hst, ← hfrom, hs₁]; simp [encodeEvents]
      · rw [List.forM_cons', bind_ok (hframe rest)]
        exact hrun
    · simp only [run_pure, EStateM.Result.ok.injEq] at h₁
      obtain ⟨rfl, rfl⟩ := h₁
      exact ⟨[], T, t, by simp, hT, by simp [hst, encodeEvents], rfl, by simp⟩

section Total
variable {P sink source}

theorem perform_total (hsink : ∀ sk ∈ sink, ∀ h s, sk.raises h s = none)
    (hsource : ∀ src ∈ source, ∀ h n, ∃ b, src.read h n = .ok b)
    {e : Event} (he : e.valid P sink source) (st : ConnState) :
    ∃ st', e.perform P sink source st = .ok () st' := by
  cases e with
  | write s =>
    obtain ⟨sk, rfl⟩ := Option.isSome_iff_exists.mp he.2
    exact ⟨_, by simp [Event.perform, callSink, hsink sk rfl]; rfl⟩
  | read len =>
    obtain ⟨src, rfl⟩ := Option.isSome_iff_exists.mp he.2
    obtain ⟨b, hb⟩ := hsource src rfl st.fx.sourceChunks len
    exact ⟨_, by simp [Event.perform, callSource, hb, writeTo, flush]; rfl⟩
  | next | startActivity | stopActivity | result => exact ⟨_, rfl⟩

theorem forM_perform_total (hsink : ∀ sk ∈ sink, ∀ h s, sk.raises h s = none)
    (hsource : ∀ src ∈ source, ∀ h n, ∃ b, src.read h n = .ok b)
    {E : List Event} (hE : ∀ e ∈ E, e.valid P sink source) (st : ConnState) :
    ∃ st', E.forM (Event.perform P sink source) st = .ok () st' := by
  induction E generalizing st with
  | nil => exact ⟨st, rfl⟩
  | cons e E ih =>
    simp only [List.mem_cons, forall_eq_or_imp] at hE
    obtain ⟨s₁, h₁⟩ := perform_total hsink hsource hE.1 st
    obtain ⟨s₂, h₂⟩ := ih hE.2 s₁
    exact ⟨s₂, by rw [List.forM_cons', bind_ok h₁, h₂]⟩

end Total

/-- What `Connection::processStderr` returned from is one event stream, consumed exactly. -/
theorem processStderr_ok {doFlush : Bool} {st st' : ConnState} {r : Option ErrorInfo}
    (h : processStderr P sink source doFlush st = .ok r st') :
    ∃ (E : List Event) (T : Terminal) (rest : Bytes), (∀ e ∈ E, e.valid P sink source) ∧
      T.valid P (getProtocolMinor st.conn.daemonVersion) ∧
      st.conn.from_ = encodeEvents P E ++ T.encode P ++ rest ∧ st'.conn.from_ = rest ∧
      r = T.result ∧
      E.forM (Event.perform P sink source) ((st.flushIf doFlush).setFrom rest) = .ok () st' := by
  rw [processStderr_eq] at h
  obtain ⟨E, T, rest, hE, hT, hst, rfl, hrun⟩ := processStderrLoop_ok P sink source h
  exact ⟨E, T, rest, hE, by simpa using hT, by simpa using hst,
    by simpa using forM_perform_from P sink source hrun, rfl, hrun⟩

/-- `Connection::processStderr` reads exactly one event stream. With caller callbacks that
return normally, it returns without raising iff the daemon's bytes begin with the encoding of
well-formed events followed by `LAST` or an `ERROR` record of the negotiated format; and when
it returns it has consumed exactly that prefix, returned no error after `LAST` and the decoded
error after `ERROR`, and performed the events in stream order. -/
theorem processStderr_reads_one_event_stream
    (hsink : ∀ sk ∈ sink, ∀ h s, sk.raises h s = none)
    (hsource : ∀ src ∈ source, ∀ h n, ∃ b, src.read h n = .ok b)
    (doFlush : Bool) (st : ConnState) :
    ((∃ r st', processStderr P sink source doFlush st = .ok r st') ↔
      ∃ (E : List Event) (T : Terminal) (rest : Bytes), (∀ e ∈ E, e.valid P sink source) ∧
        T.valid P (getProtocolMinor st.conn.daemonVersion) ∧
        st.conn.from_ = encodeEvents P E ++ T.encode P ++ rest) ∧
    (∀ r st', processStderr P sink source doFlush st = .ok r st' →
      ∃ (E : List Event) (T : Terminal) (rest : Bytes), (∀ e ∈ E, e.valid P sink source) ∧
        T.valid P (getProtocolMinor st.conn.daemonVersion) ∧
        st.conn.from_ = encodeEvents P E ++ T.encode P ++ rest ∧ st'.conn.from_ = rest ∧
        r = T.result ∧
        E.forM (Event.perform P sink source) ((st.flushIf doFlush).setFrom rest) = .ok () st') := by
  refine ⟨⟨fun ⟨r, st', h⟩ => ?_, fun ⟨E, T, rest, hE, hT, hst⟩ => ?_⟩,
    fun r st' h => processStderr_ok P sink source h⟩
  · obtain ⟨E, T, rest, hE, hT, hst, -⟩ := processStderr_ok P sink source h
    exact ⟨E, T, rest, hE, hT, hst⟩
  · obtain ⟨st', hrun⟩ := forM_perform_total hsink hsource hE ((st.flushIf doFlush).setFrom rest)
    refine ⟨T.result, st', ?_⟩
    rw [processStderr_eq]
    exact processStderrLoop_events P sink source hE (by simpa using hT)
      (by have := encodeEvents_length_ge P E; simp [hst]; omega) (by simpa using hst) hrun

end Grammar

def Source.constant (b : Bytes) : Source :=
  ⟨fun _ n => .ok (b.take n), fun _ n _ h => by cases h; exact List.length_take_le n b⟩

/-- A connection at minor 37 whose daemon sends `WRITE`, `READ`, `NEXT`, `LAST` and then the
reply word 7. -/
def ConnState.eventScenario : ConnState :=
  ⟨⟨0x125, none, none, 0, writeNum (StderrMsg.tag .write) ++ writeString (txt "hi") ++
    writeNum (StderrMsg.tag .read) ++ writeNum 4 ++ writeNum (StderrMsg.tag .next) ++
    writeString (txt "log") ++ writeNum (StderrMsg.tag .last) ++ writeNum 7, true, [], [], 0⟩,
    ⟨[], [], []⟩⟩

theorem processStderr_reads_one_event_stream_scenario :
    (∀ sk ∈ some (⟨fun _ _ => none⟩ : Sink), ∀ h s, sk.raises h s = none) ∧
    (∀ src ∈ some (Source.constant (txt "data")), ∀ h n, ∃ b, src.read h n = .ok b) ∧
    (((∃ r st', processStderr Protocol.scenario (some ⟨fun _ _ => none⟩)
        (some (Source.constant (txt "data"))) true ConnState.eventScenario = .ok r st') ↔
      ∃ (E : List Event) (T : Terminal) (rest : Bytes),
        (∀ e ∈ E, e.valid Protocol.scenario (some ⟨fun _ _ => none⟩)
          (some (Source.constant (txt "data")))) ∧
        T.valid Protocol.scenario 37 ∧
        ConnState.eventScenario.conn.from_ =
          encodeEvents Protocol.scenario E ++ T.encode Protocol.scenario ++ rest) ∧
    (∀ r st', processStderr Protocol.scenario (some ⟨fun _ _ => none⟩)
        (some (Source.constant (txt "data"))) true ConnState.eventScenario = .ok r st' →
      ∃ (E : List Event) (T : Terminal) (rest : Bytes),
        (∀ e ∈ E, e.valid Protocol.scenario (some ⟨fun _ _ => none⟩)
          (some (Source.constant (txt "data")))) ∧
        T.valid Protocol.scenario 37 ∧
        ConnState.eventScenario.conn.from_ =
          encodeEvents Protocol.scenario E ++ T.encode Protocol.scenario ++ rest ∧
        st'.conn.from_ = rest ∧ r = T.result ∧
        E.forM (Event.perform Protocol.scenario (some ⟨fun _ _ => none⟩)
          (some (Source.constant (txt "data"))))
          ((ConnState.eventScenario.flushIf true).setFrom rest) = .ok () st')) :=
  ⟨by simp, fun _ h _ _ => by cases h; exact ⟨_, rfl⟩,
    processStderr_reads_one_event_stream Protocol.scenario _ _ (by simp)
      (fun _ h _ _ => by cases h; exact ⟨_, rfl⟩) true ConnState.eventScenario⟩

example : (match processStderr Protocol.scenario (some ⟨fun _ _ => none⟩)
      (some (Source.constant (txt "data"))) true ConnState.eventScenario with
    | .ok none st' => st'.conn.from_ == writeNum 7 && st'.fx.sinkWrites == [txt "hi"] &&
        st'.fx.sourceChunks == [txt "data"]
    | _ => false) = true := by decide

end NixRemoteStore
