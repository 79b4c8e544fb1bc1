import Mathlib.Data.List.Basic

/-! Byte strings and the exceptions of the remote-store client.
The C++ client tells its exceptions apart only where a `catch` clause names a class
(`Error`, `SysError`, `EndOfFile`), so an exception is one constructor per class that
some clause distinguishes, with the data it carries. -/

namespace NixRemoteStore

abbrev Bytes := List UInt8

def txt (s : String) : Bytes := s.toList.map fun c => c.toNat.toUInt8

/-- `s.find(pat) != std::string::npos`. -/
def hasInfix (pat : Bytes) : Bytes → Bool
  | [] => pat.isPrefixOf []
  | c :: cs => pat.isPrefixOf (c :: cs) || hasInfix pat cs

/-- `a < b` of `std::string`: lexicographic, byte by byte as unsigned chars. -/
def bytesLt : Bytes → Bytes → Bool
  | _, [] => false
  | [], _ :: _ => true
  | a :: as, b :: bs => a.toNat < b.toNat || (a == b && bytesLt as bs)

def hex (n : Nat) : Bytes := txt (String.mk (Nat.toDigits 16 n))

/-- The payload of a `nix::Error`: level, name, message, trace lines and exit status. -/
structure ErrorInfo where
  level : Nat
  name : Bytes
  msg : Bytes
  traces : List Bytes
  status : Nat
  deriving DecidableEq, Repr

def ErrorInfo.ofMsg (msg : Bytes) (status : Nat) : ErrorInfo := ⟨0, [], msg, [], status⟩

/-- The exceptions the client raises or lets through. `foreign` is anything caller code
throws that is not a `nix::Error`; `blocked` is a wait in the pool that no other client can
end; `nullDeref` is the dereference of an absent pointer. -/
inductive Exn
  | error (info : ErrorInfo)
  | endOfFile (msg : Bytes)
  | sysError (errNo : Nat) (msg : Bytes)
  | serialisation (msg : Bytes)
  | unimplemented (msg : Bytes)
  | missingRealisation (id : Bytes)
  | foreign (code : Nat)
  | blocked
  | nullDeref
  deriving DecidableEq, Repr

namespace Exn

def fail (msg : Bytes) : Exn := .error (ErrorInfo.ofMsg msg 1)

/-- Whether a `catch (Error & e)` clause catches the exception. -/
def isError : Exn → Bool
  | foreign _ | blocked | nullDeref => false
  | _ => true

def msg : Exn → Bytes
  | error info => info.msg
  | endOfFile m | sysError _ m | serialisation m | unimplemented m => m
  | missingRealisation id => id
  | foreign _ | blocked | nullDeref => []

end Exn

def EPIPE : Nat := 32

end NixRemoteStore
