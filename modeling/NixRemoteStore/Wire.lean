import NixRemoteStore.Errors
import Mathlib.Algebra.Group.Nat.Basic

/-! The wire codec of the worker protocol (`serialise.hh`, not in the sources; §4.1 of the
spec): 8-byte little-endian integers and padded byte strings. Each decoder reads back what
its encoder wrote and accepts nothing else. -/

namespace NixRemoteStore
namespace Wire

section Run
variable {ε σ α β : Type}

/-! `EStateM` computations applied to a state, one equation per primitive. -/

@[simp] theorem run_pure (a : α) (s : σ) : (pure a : EStateM ε σ α) s = .ok a s := rfl

@[simp] theorem run_throw (e : ε) (s : σ) : (throw e : EStateM ε σ α) s = .error e s := rfl

@[simp] theorem run_bind (x : EStateM ε σ α) (f : α → EStateM ε σ β) (s : σ) :
    (x >>= f) s = match x s with
      | .ok a s' => f a s'
      | .error e s' => .error e s' := rfl

@[simp] theorem run_get (s : σ) : (get : EStateM ε σ σ) s = .ok s s := rfl

@[simp] theorem run_get_bind (f : σ → EStateM ε σ β) (s : σ) : (get >>= f) s = f s s := rfl

@[simp] theorem run_ite (c : Prop) [Decidable c] (x y : EStateM ε σ α) (s : σ) :
    (if c then x else y) s = if c then x s else y s := by
  split <;> rfl

@[simp] theorem run_set (s' s : σ) : (set s' : EStateM ε σ PUnit) s = .ok ⟨⟩ s' := rfl

@[simp] theorem run_modify (f : σ → σ) (s : σ) :
    (modify f : EStateM ε σ PUnit) s = .ok ⟨⟩ (f s) := rfl

@[simp] theorem run_tryCatch (x : EStateM ε σ α) (h : ε → EStateM ε σ α) (s : σ) :
    (tryCatch x h : EStateM ε σ α) s = match x s with
      | .ok a s' => .ok a s'
      | .error e s' => h e s' := by
  show EStateM.tryCatch x h s = _
  simp only [EStateM.tryCatch]
  cases x s <;> rfl

theorem bind_ok {x : EStateM ε σ α} {f : α → EStateM ε σ β} {s s' : σ} {a : α}
    (h : x s = .ok a s') : (x >>= f) s = f a s' := by
  simp [h]

theorem bind_eq_ok {x : EStateM ε σ α} {f : α → EStateM ε σ β} {s t : σ} {b : β} :
    (x >>= f) s = .ok b t ↔ ∃ a s', x s = .ok a s' ∧ f a s' = .ok b t := by
  cases hx : x s with
  | ok a s' =>
    simp only [run_bind, hx]
    exact ⟨fun h => ⟨a, s', rfl, h⟩, fun ⟨_, _, he, h⟩ => by cases he; exact h⟩
  | error e s' => simp [hx]

theorem bind_const_ok {m : EStateM ε σ Unit} {s t : σ} {b c : β}
    (h : (m >>= fun _ => pure b) s = .ok c t) : c = b ∧ m s = .ok () t := by
  obtain ⟨u, s', hm, h⟩ := bind_eq_ok.mp h
  simp only [run_pure, EStateM.Result.ok.injEq] at h
  obtain ⟨rfl, rfl⟩ := h
  exact ⟨rfl, hm⟩

def resultState : EStateM.Result ε σ α → σ
  | .ok _ s => s
  | .error _ s => s

@[simp] theorem resultState_ok (a : α) (s : σ) : resultState (.ok a s : EStateM.Result ε σ α) = s :=
  rfl

@[simp] theorem resultState_error (e : ε) (s : σ) :
    resultState (.error e s : EStateM.Result ε σ α) = s := rfl

@[simp] theorem run_map (f : α → β) (x : EStateM ε σ α) (s : σ) :
    (f <$> x) s = match x s with
      | .ok a s' => .ok (f a) s'
      | .error e s' => .error e s' := by
  show EStateM.map f x s = _
  rfl

end Run

def encodeLE : Nat → Nat → Bytes
  | 0, _ => []
  | w+1, n => UInt8.ofNat n :: encodeLE w (n / 256)

def decodeLE : Bytes → Nat
  | [] => 0
  | b :: bs => b.toNat + 256 * decodeLE bs

theorem toNat_lt (b : UInt8) : b.toNat < 256 := b.val.isLt

theorem toNat_ofNat (n : Nat) : (UInt8.ofNat n).toNat = n % 256 := by
  simp [UInt8.ofNat, UInt8.toNat, Fin.ofNat]

@[simp] theorem encodeLE_length (w n : Nat) : (encodeLE w n).length = w := by
  induction w generalizing n <;> simp [encodeLE, *]

theorem decodeLE_encodeLE (w n : Nat) : decodeLE (encodeLE w n) = n % 256 ^ w := by
  induction w generalizing n with
  | zero => simp [encodeLE, decodeLE, Nat.mod_one]
  | succ w ih => rw [encodeLE, decodeLE, ih, toNat_ofNat, Nat.pow_succ', Nat.mod_mul]

theorem decodeLE_lt (bs : Bytes) : decodeLE bs < 256 ^ bs.length := by
  induction bs with
  | nil => simp [decodeLE]
  | cons b bs ih =>
    have hb := toNat_lt b
    have h : 256 * (decodeLE bs + 1) ≤ 256 * 256 ^ bs.length := Nat.mul_le_mul_left _ ih
    rw [decodeLE, List.length_cons, Nat.pow_succ']
    omega

theorem encodeLE_decodeLE (bs : Bytes) : encodeLE bs.length (decodeLE bs) = bs := by
  induction bs with
  | nil => rfl
  | cons b bs ih =>
    have hb := toNat_lt b
    have hdiv : (b.toNat + 256 * decodeLE bs) / 256 = decodeLE bs := by omega
    have hmod : UInt8.ofNat (b.toNat + 256 * decodeLE bs) = b :=
      UInt8.toNat.inj (by rw [toNat_ofNat]; omega)
    rw [List.length_cons, encodeLE, decodeLE, hdiv, hmod, ih]

/-- Why a read failed: the stream ended, or the code raised on what it read. -/
inductive ReadErr
  | eof
  | fail (e : Exn)
  deriving DecidableEq, Repr

abbrev Reader (α : Type) := EStateM ReadErr Bytes α

/-- `source(buf, n)`: exactly `n` bytes, or end-of-file with the rest consumed. -/
def readBytes (n : Nat) : Reader Bytes := fun s =>
  if n ≤ s.length then .ok (s.take n) (s.drop n) else .error .eof []

/-- `readNum<T>`: 8 little-endian bytes, rejected when above the maximum of `T`. -/
def readNum (max : Nat) : Reader Nat := do
  let n := decodeLE (← readBytes 8)
  if max < n then
    throw (.fail (.serialisation (txt "serialised integer " ++ txt (toString n) ++
      txt " is too large for type")))
  pure n

/-- `uint64_t`, also `size_t` and `ActivityId` on the 64-bit targets. -/
def u64Max : Nat := 2 ^ 64 - 1

/-- `unsigned int`. -/
def u32Max : Nat := 2 ^ 32 - 1

@[reducible] def readInt : Reader Nat := readNum u32Max

@[reducible] def readLongLong : Reader Nat := readNum u64Max

def readPadding (len : Nat) : Reader Unit := do
  if len % 8 ≠ 0 then
    let zero ← readBytes (8 - len % 8)
    if zero.any (· ≠ 0) then throw (.fail (.serialisation (txt "non-zero padding")))

def readString : Reader Bytes := do
  let len ← readNum u64Max
  let s ← readBytes len
  readPadding len
  pure s

def writeNum (n : Nat) : Bytes := encodeLE 8 n

def writeBool (b : Bool) : Bytes := writeNum (if b then 1 else 0)

def padding (len : Nat) : Bytes := List.replicate ((8 - len % 8) % 8) 0

def writeString (s : Bytes) : Bytes := writeNum s.length ++ s ++ padding s.length

def writeStrings (ss : List Bytes) : Bytes := writeNum ss.length ++ (ss.map writeString).flatten

@[simp] theorem writeNum_length (n : Nat) : (writeNum n).length = 8 := encodeLE_length 8 n

theorem readBytes_ok {n : Nat} {s b r : Bytes} (h : readBytes n s = .ok b r) :
    b.length = n ∧ s = b ++ r := by
  unfold readBytes at h
  split at h
  · cases h; exact ⟨by simp [Nat.min_eq_left ‹_›], (List.take_append_drop n s).symm⟩
  · cases h

theorem readBytes_append {n : Nat} {pre : Bytes} (h : pre.length = n) (rest : Bytes) :
    readBytes n (pre ++ rest) = .ok pre rest := by
  subst h; simp [readBytes]

theorem readNum_writeNum {max n : Nat} (hn : n ≤ max) (hmax : max ≤ u64Max) (rest : Bytes) :
    readNum max (writeNum n ++ rest) = .ok n rest := by
  have hd : decodeLE (writeNum n) = n := by
    rw [writeNum, decodeLE_encodeLE, Nat.mod_eq_of_lt (by unfold u64Max at hmax; omega)]
  simp [readNum, readBytes_append (writeNum_length n), hd, Nat.not_lt.mpr hn]

theorem readNum_ok {max n : Nat} {s r : Bytes} (h : readNum max s = .ok n r) :
    n ≤ max ∧ s = writeNum n ++ r := by
  cases hb : readBytes 8 s with
  | error e r' => simp [readNum, hb] at h
  | ok bs r' =>
    simp only [readNum, run_bind, hb] at h
    obtain ⟨hlen, rfl⟩ := readBytes_ok hb
    by_cases hm : max < decodeLE bs
    · simp [hm] at h
    · simp only [hm, if_false, run_bind, run_pure, EStateM.Result.ok.injEq] at h
      obtain ⟨rfl, rfl⟩ := h
      exact ⟨Nat.not_lt.mp hm, by rw [writeNum, ← hlen, encodeLE_decodeLE]⟩

theorem padding_eq {len : Nat} (h : len % 8 ≠ 0) :
    padding len = List.replicate (8 - len % 8) 0 := by
  rw [padding, Nat.mod_eq_of_lt (by omega)]

theorem readPadding_padding (len : Nat) (rest : Bytes) :
    readPadding len (padding len ++ rest) = .ok () rest := by
  by_cases h : len % 8 = 0
  · simp [readPadding, padding, h]
  · rw [padding_eq h]
    simp [readPadding, h, readBytes_append (List.length_replicate _ _), List.any_replicate]

theorem readPadding_ok {len : Nat} {s r : Bytes} {u : Unit} (h : readPadding len s = .ok u r) :
    s = padding len ++ r := by
  by_cases h0 : len % 8 = 0
  · simp [readPadding, h0] at h
    simp [padding, h0, h]
  · cases hz : readBytes (8 - len % 8) s with
    | error e r' => simp [readPadding, h0, hz] at h
    | ok zero r' =>
      simp only [readPadding, h0, ne_eq, not_false_eq_true, if_true, run_bind, hz] at h
      obtain ⟨hlen, rfl⟩ := readBytes_ok hz
      by_cases hany : ∃ x ∈ zero, x ≠ 0
      · simp [hany] at h
      · simp only [List.any_eq_true, decide_eq_true_eq, hany, if_false, run_pure,
          EStateM.Result.ok.injEq] at h
        have hzero : zero = List.replicate (8 - len % 8) 0 :=
          List.eq_replicate_iff.mpr ⟨hlen, by simpa using hany⟩
        rw [padding_eq h0, hzero, h.2]

theorem readString_writeString {s : Bytes} (hs : s.length ≤ u64Max) (rest : Bytes) :
    readString (writeString s ++ rest) = .ok s rest := by
  simp [readString, writeString, readNum_writeNum hs le_rfl, readBytes_append rfl,
    readPadding_padding]

theorem readString_ok {t s r : Bytes} (h : readString t = .ok s r) :
    s.length ≤ u64Max ∧ t = writeString s ++ r := by
  obtain ⟨len, r₁, hn, h⟩ := bind_eq_ok.mp h
  obtain ⟨s', r₂, hb, h⟩ := bind_eq_ok.mp h
  obtain ⟨u, r₃, hp, h⟩ := bind_eq_ok.mp h
  simp only [run_pure, EStateM.Result.ok.injEq] at h
  obtain ⟨rfl, rfl⟩ := h
  obtain ⟨hle, rfl⟩ := readNum_ok hn
  obtain ⟨hlen, rfl⟩ := readBytes_ok hb
  subst hlen
  exact ⟨hle, by rw [readPadding_ok hp, writeString]; simp⟩

/-- A wire format: `decode` reads back exactly what `encode` wrote, and accepts nothing
else; `valid` says which values the format can carry. -/
structure Codec (α : Type) where
  encode : α → Bytes
  decode : Reader α
  valid : α → Prop
  decode_encode : ∀ a rest, valid a → decode (encode a ++ rest) = .ok a rest
  decode_sound : ∀ {s a rest}, decode s = .ok a rest → valid a ∧ s = encode a ++ rest

@[reducible] def Codec.num (max : Nat) (hmax : max ≤ u64Max) : Codec Nat where
  encode := writeNum
  decode := readNum max
  valid n := n ≤ max
  decode_encode _ rest h := readNum_writeNum h hmax rest
  decode_sound h := readNum_ok h

@[reducible] def Codec.string : Codec Bytes where
  encode := writeString
  decode := readString
  valid s := s.length ≤ u64Max
  decode_encode _ rest h := readString_writeString h rest
  decode_sound h := readString_ok h

theorem u32Max_le : u32Max ≤ u64Max := by decide

@[reducible] def Codec.u64 : Codec Nat := Codec.num u64Max le_rfl

@[reducible] def Codec.u32 : Codec Nat := Codec.num u32Max u32Max_le

namespace Codec
variable {α β : Type} (c : Codec α)

theorem decode_bind_encode {k : α → Reader β} {a : α} (ha : c.valid a) (rest : Bytes) :
    (c.decode >>= k) (c.encode a ++ rest) = k a rest :=
  bind_ok (c.decode_encode a rest ha)

theorem decode_bind_ok {k : α → Reader β} {s r : Bytes} {b : β}
    (h : (c.decode >>= k) s = .ok b r) :
    ∃ a t, c.valid a ∧ s = c.encode a ++ t ∧ k a t = .ok b r := by
  obtain ⟨a, t, hd, hk⟩ := bind_eq_ok.mp h
  obtain ⟨hv, rfl⟩ := c.decode_sound hd
  exact ⟨a, t, hv, rfl, hk⟩

@[reducible] def pair (d : Codec β) : Codec (α × β) where
  encode p := c.encode p.1 ++ d.encode p.2
  decode := do
    let a ← c.decode
    let b ← d.decode
    pure (a, b)
  valid p := c.valid p.1 ∧ d.valid p.2
  decode_encode p rest h := by
    rw [List.append_assoc, c.decode_bind_encode h.1, d.decode_bind_encode h.2]; rfl
  decode_sound h := by
    obtain ⟨a, t, ha, rfl, h₁⟩ := c.decode_bind_ok h
    obtain ⟨b, t', hb, rfl, h₂⟩ := d.decode_bind_ok h₁
    simp only [run_pure, EStateM.Result.ok.injEq] at h₂
    obtain ⟨rfl, rfl⟩ := h₂
    exact ⟨⟨ha, hb⟩, by simp⟩

def decodeN : Nat → Reader (List α)
  | 0 => pure []
  | n+1 => do
    let a ← c.decode
    let as ← decodeN n
    pure (a :: as)

theorem decodeN_encode {as : List α} (hv : ∀ a ∈ as, c.valid a) (rest : Bytes) :
    c.decodeN as.length ((as.map c.encode).flatten ++ rest) = .ok as rest := by
  induction as with
  | nil => rfl
  | cons a as ih =>
    simp only [List.mem_cons, forall_eq_or_imp] at hv
    simp [decodeN, List.append_assoc, c.decode_encode a _ hv.1, ih hv.2]

theorem decodeN_ok {n : Nat} {s r : Bytes} {as : List α} (h : c.decodeN n s = .ok as r) :
    as.length = n ∧ (∀ a ∈ as, c.valid a) ∧ s = (as.map c.encode).flatten ++ r := by
  induction n generalizing s as with
  | zero =>
    simp only [decodeN, run_pure, EStateM.Result.ok.injEq] at h
    obtain ⟨rfl, rfl⟩ := h
    simp
  | succ n ih =>
    obtain ⟨a, t, ha, rfl, h₁⟩ := c.decode_bind_ok h
    obtain ⟨as', t', hs, h₂⟩ := bind_eq_ok.mp h₁
    simp only [run_pure, EStateM.Result.ok.injEq] at h₂
    obtain ⟨rfl, rfl⟩ := h₂
    obtain ⟨hlen, hvs, rfl⟩ := ih hs
    exact ⟨by simp [hlen], by simpa [ha] using hvs, by simp⟩

/-- A sequence: a count read as `readNum<size_t>`, then the values (§4.1 of the spec). -/
@[reducible] def list : Codec (List α) where
  encode as := writeNum as.length ++ (as.map c.encode).flatten
  decode := do
    let n ← readNum u64Max
    c.decodeN n
  valid as := as.length ≤ u64Max ∧ ∀ a ∈ as, c.valid a
  decode_encode as rest h := by
    rw [List.append_assoc, Codec.u64.decode_bind_encode h.1, c.decodeN_encode h.2]
  decode_sound h := by
    obtain ⟨n, t, hn, rfl, h₁⟩ := Codec.u64.decode_bind_ok h
    obtain ⟨rfl, hv, rfl⟩ := c.decodeN_ok h₁
    exact ⟨⟨hn, hv⟩, rfl⟩

@[reducible] def empty : Codec α where
  encode _ := []
  decode := throw (.fail (.serialisation []))
  valid _ := False
  decode_encode _ _ h := h.elim
  decode_sound h := by cases h

end Codec

end Wire
end NixRemoteStore
