import NixRemoteStore.Wire

/-! The parts of the worker protocol that `remote-store.cc` uses but the sources do not define:
the greeting constants, event tags, field types, op codes and record serialisers, as the
parameters of a `Protocol`, each with the invariant the code relies on. -/

namespace NixRemoteStore

open Wire

inductive StderrMsg
  | write | read | error | next | startActivity | stopActivity | result | last
  deriving DecidableEq, Repr

inductive FieldType
  | tInt | tString
  deriving DecidableEq, Repr

/-- `WorkerProto::Op`, the operations the client sends. -/
inductive Op
  | isValidPath | queryValidPaths | queryAllValidPaths | querySubstitutablePaths
  | querySubstitutablePathInfos | queryPathInfo | queryReferrers | queryValidDerivers
  | queryDerivationOutputs | queryDerivationOutputMap | queryPathFromHashPart
  | addToStore | addTextToStore | addToStoreNar | addMultipleToStore | registerDrvOutput
  | queryRealisation | buildPaths | buildPathsWithResults | buildDerivation | ensurePath
  | addTempRoot | findRoots | collectGarbage | optimiseStore | verifyStore | addSignatures
  | queryMissing | addBuildLog | narFromPath | setOptions
  deriving DecidableEq, Repr

inductive TrustedFlag
  | trusted | notTrusted
  deriving DecidableEq, Repr

inductive OutputsSpec
  | all
  | names (ns : List Bytes)
  deriving DecidableEq, Repr

inductive DerivedPath
  | opaquePath (path : Bytes)
  | built (drvPath : Bytes) (outputs : OutputsSpec)
  deriving DecidableEq, Repr

structure DrvOutput where
  drvHash : Bytes
  outputName : Bytes
  deriving DecidableEq, Repr

def DrvOutput.toString (id : DrvOutput) : Bytes := id.drvHash ++ txt "!" ++ id.outputName

structure Realisation where
  id : DrvOutput
  outPath : Bytes
  deriving DecidableEq, Repr

/-- `BuildResult::Status`; the compatibility path of `buildPathsWithResults` makes the
first two. -/
inductive BuildStatus
  | built | substituted | other (code : Nat)
  deriving DecidableEq, Repr

structure BuildResult where
  status : BuildStatus
  builtOutputs : List (Bytes × Realisation)
  deriving DecidableEq, Repr

structure KeyedBuildResult where
  result : BuildResult
  path : DerivedPath
  deriving DecidableEq, Repr

inductive HashType
  | md5 | sha1 | sha256 | sha512
  deriving DecidableEq, Repr

inductive FileIngestionMethod
  | flat | recursive
  deriving DecidableEq, Repr

inductive ContentAddressMethod
  | text
  | file (fim : FileIngestionMethod)
  deriving DecidableEq, Repr

/-- The protocol definitions missing from the sources. -/
structure Protocol where
  workerMagic1 : Nat
  workerMagic2 : Nat
  workerMagic2_le : workerMagic2 ≤ u64Max
  protocolVersion : Nat
  minSupportedMinor : Nat
  stderr : StderrMsg → Nat
  stderr_injective : Function.Injective stderr
  stderr_le : ∀ m, stderr m ≤ u64Max
  fieldType : FieldType → Nat
  fieldType_injective : Function.Injective fieldType
  fieldType_le : ∀ t, fieldType t ≤ u32Max
  opCode : Op → Nat
  /-- `readError`, the structured error record of daemons from minor 26 on. -/
  errorRecord : Codec ErrorInfo
  /-- `chomp`: the log line without its trailing white space. -/
  chomp : Bytes → Bytes
  /-- `WorkerProto::Serialise<T>` for the records below, at a minor version. -/
  trustedFlag : Codec (Option TrustedFlag)
  optionalStorePath : Codec (Option Bytes)
  validPathInfo : Nat → Codec Bytes
  unkeyedValidPathInfo : Nat → Codec Bytes
  derivedPath : Nat → Codec DerivedPath
  keyedBuildResult : Nat → Codec KeyedBuildResult
  realisation : Nat → Codec Realisation
  /-- `printHashType` and `ContentAddressMethod::render`. -/
  printHashType : HashType → Bytes
  renderCA : ContentAddressMethod → HashType → Bytes
  /-- `dumpString`: the archive of one regular file with the given contents. -/
  dumpString : Bytes → Bytes

/-- `GET_PROTOCOL_MAJOR` (modelled from the spec: the high byte of the version word). -/
def getProtocolMajor (v : Nat) : Nat := v / 256 % 256

/-- `GET_PROTOCOL_MINOR` (modelled from the spec: the low byte of the version word). -/
def getProtocolMinor (v : Nat) : Nat := v % 256

namespace Protocol

variable (P : Protocol)

@[simp] theorem stderr_eq_iff (a b : StderrMsg) : P.stderr a = P.stderr b ↔ a = b :=
  P.stderr_injective.eq_iff

@[simp] theorem fieldType_eq_iff (a b : FieldType) : P.fieldType a = P.fieldType b ↔ a = b :=
  P.fieldType_injective.eq_iff

end Protocol

/-- `std::optional<TrustedFlag>` on the wire: one small integer, 0 for unknown. -/
def readTrustedFlag : Reader (Option TrustedFlag) := do
  match ← readNum 255 with
  | 0 => pure none
  | 1 => pure (some .trusted)
  | 2 => pure (some .notTrusted)
  | n => throw (.fail (Exn.fail (txt "Invalid trusted status '" ++ txt (toString n) ++
      txt "' from remote")))

def trustedFlagCode : Option TrustedFlag → Nat
  | none => 0
  | some .trusted => 1
  | some .notTrusted => 2

def Wire.Codec.trustedFlag : Codec (Option TrustedFlag) where
  encode t := writeNum (trustedFlagCode t)
  decode := readTrustedFlag
  valid _ := True
  decode_encode t rest _ := by
    have hmax : (255 : Nat) ≤ u64Max := by decide
    rcases t with _ | _ | _ <;>
      simp [readTrustedFlag, trustedFlagCode, readNum_writeNum (by decide : 0 ≤ 255) hmax,
        readNum_writeNum (by decide : 1 ≤ 255) hmax, readNum_writeNum (by decide : 2 ≤ 255) hmax]
  decode_sound h := by
    obtain ⟨n, t, hn, rfl, h₁⟩ := (Codec.num 255 (by decide)).decode_bind_ok h
    match n, h₁ with
    | 0, h₁ => cases h₁; exact ⟨trivial, rfl⟩
    | 1, h₁ => cases h₁; exact ⟨trivial, rfl⟩
    | 2, h₁ => cases h₁; exact ⟨trivial, rfl⟩
    | n+3, h₁ => cases h₁

/-- Modelled from the spec: an `assert` on what was read; a failed one ends the read. -/
def expect (b : Bool) : Reader Unit :=
  if b then pure () else throw (.fail (Exn.fail (txt "assertion failed")))

@[simp] theorem expect_true_bind {α : Type} (k : Unit → Reader α) : (expect true >>= k) = k () :=
  rfl

theorem expect_bind_ok {α : Type} {b : Bool} {k : Unit → Reader α} {s r : Bytes} {a : α}
    (h : (expect b >>= k) s = .ok a r) : b = true ∧ k () s = .ok a r := by
  cases b
  · cases h
  · exact ⟨rfl, h⟩

/-- Modelled from the spec: a trace line of a structured error, after a position flag that is
always 0. -/
def Wire.Codec.errorTrace : Codec Bytes where
  encode t := writeNum 0 ++ writeString t
  decode := do
    let havePos ← readNum u64Max
    expect (havePos == 0)
    readString
  valid t := t.length ≤ u64Max
  decode_encode t rest h := by
    rw [List.append_assoc, Codec.u64.decode_bind_encode (Nat.zero_le _), beq_self_eq_true,
      expect_true_bind]
    exact readString_writeString h rest
  decode_sound h := by
    obtain ⟨havePos, t, -, rfl, h₁⟩ := Codec.u64.decode_bind_ok h
    obtain ⟨hpos, h₂⟩ := expect_bind_ok h₁
    obtain ⟨hle, rfl⟩ := readString_ok h₂
    exact ⟨hle, by rw [beq_iff_eq.mp hpos]; rfl⟩

/-- Modelled from the spec: the structured error record of daemons from minor 26 on, as
`readError` reads it: the tag `Error`, the level, the name, the message, a position flag
(0) and the traces; the status is `Error`'s default. -/
def Wire.Codec.errorRecord : Codec ErrorInfo where
  encode info := writeString (txt "Error") ++ writeNum info.level ++ writeString info.name ++
    writeString info.msg ++ writeNum 0 ++ (Codec.list Codec.errorTrace).encode info.traces
  decode := do
    let type ← readString
    expect (type == txt "Error")
    let level ← readInt
    let name ← readString
    let msg ← readString
    let havePos ← readNum u64Max
    expect (havePos == 0)
    let traces ← (Codec.list Codec.errorTrace).decode
    pure ⟨level, name, msg, traces, 1⟩
  valid info := info.level ≤ u32Max ∧ info.name.length ≤ u64Max ∧ info.msg.length ≤ u64Max ∧
    (Codec.list Codec.errorTrace).valid info.traces ∧ info.status = 1
  decode_encode info rest h := by
    obtain ⟨hl, hn, hm, ht, hs⟩ := h
    iterate 5 rw [List.append_assoc]
    rw [Codec.string.decode_bind_encode (by decide), beq_self_eq_true, expect_true_bind,
      Codec.u32.decode_bind_encode hl,
      Codec.string.decode_bind_encode hn, Codec.string.decode_bind_encode hm,
      Codec.u64.decode_bind_encode (Nat.zero_le _), beq_self_eq_true, expect_true_bind,
      (Codec.list Codec.errorTrace).decode_bind_encode ht, ← hs]
    rfl
  decode_sound h := by
    obtain ⟨type, t₁, -, rfl, h₁⟩ := Codec.string.decode_bind_ok h
    obtain ⟨htype, h₁⟩ := expect_bind_ok h₁
    obtain ⟨level, t₂, hl, rfl, h₂⟩ := Codec.u32.decode_bind_ok h₁
    obtain ⟨name, t₃, hn, rfl, h₃⟩ := Codec.string.decode_bind_ok h₂
    obtain ⟨msg, t₄, hm, rfl, h₄⟩ := Codec.string.decode_bind_ok h₃
    obtain ⟨havePos, t₅, -, rfl, h₅⟩ := Codec.u64.decode_bind_ok h₄
    obtain ⟨hpos, h₅⟩ := expect_bind_ok h₅
    obtain ⟨traces, t₆, ht, rfl, h₆⟩ := (Codec.list Codec.errorTrace).decode_bind_ok h₅
    cases h₆
    rw [beq_iff_eq.mp htype, beq_iff_eq.mp hpos]
    exact ⟨⟨hl, hn, hm, ht, rfl⟩, by simp⟩

/-- `std::optional<StorePath>` on the wire: the path, or the empty string for none. -/
def Wire.Codec.optionalStorePath : Codec (Option Bytes) where
  encode p := writeString (p.getD [])
  decode := (fun s => if s = [] then none else some s) <$> readString
  valid p := p ≠ some [] ∧ (p.getD []).length ≤ u64Max
  decode_encode p rest h := by
    rcases p with _ | s
    · simp [readString_writeString]
    · have h₁ : s ≠ [] := fun he => h.1 (by rw [he])
      have h₂ : s.length ≤ u64Max := h.2
      simp [readString_writeString h₂, h₁]
  decode_sound h := by
    simp only [run_map] at h
    split at h
    · rename_i s r hs
      obtain ⟨hle, rfl⟩ := readString_ok hs
      simp only [EStateM.Result.ok.injEq] at h
      obtain ⟨rfl, rfl⟩ := h
      by_cases he : s = [] <;> simp [he, hle]
    · cases h

/-- The names of hash types, and the rendering of a content-address method with its hash
type as `content-address.cc` writes it. -/
def HashType.name : HashType → Bytes
  | .md5 => txt "md5" | .sha1 => txt "sha1" | .sha256 => txt "sha256" | .sha512 => txt "sha512"

def ContentAddressMethod.render (m : ContentAddressMethod) (ht : HashType) : Bytes :=
  (match m with
    | .text => txt "text:"
    | .file .recursive => txt "r:"
    | .file .flat => []) ++ ht.name

def Op.code : Op → Nat
  | .isValidPath => 1 | .queryReferrers => 6 | .addToStore => 7 | .addTextToStore => 8
  | .buildPaths => 9 | .ensurePath => 10 | .addTempRoot => 11 | .findRoots => 14
  | .setOptions => 19 | .collectGarbage => 20 | .queryDerivationOutputs => 22
  | .queryAllValidPaths => 23 | .queryPathInfo => 26 | .queryPathFromHashPart => 29
  | .querySubstitutablePathInfos => 30 | .queryValidPaths => 31
  | .querySubstitutablePaths => 32 | .queryValidDerivers => 33 | .optimiseStore => 34
  | .verifyStore => 35 | .buildDerivation => 36 | .addSignatures => 37 | .narFromPath => 38
  | .addToStoreNar => 39 | .queryMissing => 40 | .queryDerivationOutputMap => 41
  | .registerDrvOutput => 42 | .queryRealisation => 43 | .addMultipleToStore => 44
  | .addBuildLog => 45 | .buildPathsWithResults => 46

def StderrMsg.tag : StderrMsg → Nat
  | .write => 0x64617416 | .read => 0x64617461 | .error => 0x63787470 | .next => 0x6f6c6d67
  | .startActivity => 0x53545254 | .stopActivity => 0x53544f50 | .result => 0x52534c54
  | .last => 0x616c7473

/-- A protocol to run the model on: the greeting of the spec's handshake scenario (version
1.37), the daemon's event tags, field types and op codes, structured error records, and
records nobody sends. -/
def Protocol.scenario : Protocol where
  workerMagic1 := 0x6e697863
  workerMagic2 := 0x6478696f
  workerMagic2_le := by decide
  protocolVersion := 0x125
  minSupportedMinor := 18
  stderr := StderrMsg.tag
  stderr_injective a b h := by cases a <;> cases b <;> first | rfl | cases h
  stderr_le m := by cases m <;> decide
  fieldType | .tInt => 0 | .tString => 1
  fieldType_injective a b h := by cases a <;> cases b <;> first | rfl | cases h
  fieldType_le t := by cases t <;> decide
  opCode := Op.code
  errorRecord := Codec.errorRecord
  chomp s := (s.reverse.dropWhile fun c => c ∈ [32, 9, 10, 13]).reverse
  trustedFlag := Codec.trustedFlag
  optionalStorePath := Codec.optionalStorePath
  validPathInfo _ := Codec.string
  unkeyedValidPathInfo _ := Codec.string
  derivedPath _ := Codec.empty
  keyedBuildResult _ := Codec.empty
  realisation _ := Codec.empty
  printHashType := HashType.name
  renderCA := ContentAddressMethod.render
  dumpString := writeString

end NixRemoteStore
