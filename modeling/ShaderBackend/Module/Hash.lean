import ShaderBackend.Module.Blake3
import ShaderBackend.Module.Writer

/-!
The identity of a module: the BLAKE3 digest of its bytes, and a short form of eight characters for
people, which stands for the first forty bits.
-/

namespace ShaderBackend

structure ModuleHash where
  bytes : Vector UInt8 32
  deriving DecidableEq, Repr

namespace ModuleHash

def ofBytes (bytes : Bytes) : ModuleHash :=
  ⟨Blake3.digest bytes⟩

/-- The digits of the short form, in the order of their values. -/
def alphabet : Text := "0123456789abcdefghjkmnpqrstvwxyz"

def digit (n : Nat) : Char :=
  alphabet.getD n '0'

/-- The first five bytes as one number. -/
def leadingBits (h : ModuleHash) : Nat :=
  (h.bytes.toList.take 5).foldl (fun bits b => bits * 256 + b.toNat) 0

/-- The first forty bits, five to a digit. -/
def short (h : ModuleHash) : Text :=
  (List.range 8).map fun k => digit ((h.leadingBits >>> (5 * (7 - k))) % 32)

def hex (h : ModuleHash) : Text :=
  Bytes.hex h.bytes.toList

/-- The form in messages. -/
def label (h : ModuleHash) : Text :=
  '#' :: h.short

/-- The whole digest with its kind. -/
def describe (h : ModuleHash) : Text :=
  "ModuleHash(" ++ h.hex ++ ")"

end ModuleHash

/-- The identity that a module has by some digest of its bytes. -/
def Module.hashBy (digest : Bytes → Vector UInt8 32) (m : Module) : ModuleHash :=
  ⟨digest m.toBytes⟩

def Module.hash (m : Module) : ModuleHash :=
  m.hashBy Blake3.digest

end ShaderBackend
