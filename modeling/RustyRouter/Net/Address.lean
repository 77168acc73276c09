import Mathlib.Algebra.Group.Nat.Defs

/-! Addresses and time.

An IPv4 address is its 32-bit number, a MAC address its six octets. Instants and
durations count nanoseconds, the resolution of `std::time`; the code reads most
durations back in whole seconds. -/
namespace RustyRouter

/-! ### Addresses -/

/-- `std::net::Ipv4Addr`, as `u32::from` numbers it. -/
abbrev Ipv4Addr := BitVec 32

namespace Ipv4Addr

def new (a b c d : UInt8) : Ipv4Addr := a.toBitVec ++ b.toBitVec ++ c.toBitVec ++ d.toBitVec

/-- `0.0.0.0` -/
def unspecified : Ipv4Addr := 0

/-- `255.255.255.255` -/
def broadcast : Ipv4Addr := BitVec.allOnes 32

def isUnspecified (ip : Ipv4Addr) : Bool := ip == unspecified

end Ipv4Addr

/-- `pnet::util::MacAddr` -/
structure MacAddr where
  o0 : UInt8
  o1 : UInt8
  o2 : UInt8
  o3 : UInt8
  o4 : UInt8
  o5 : UInt8
  deriving DecidableEq, Repr

namespace MacAddr

def octets (m : MacAddr) : List UInt8 := [m.o0, m.o1, m.o2, m.o3, m.o4, m.o5]

/-- `<[u8; 6]>::try_from(bytes)`, then `MacAddr::from`. -/
def tryFrom : List UInt8 → Option MacAddr
  | [a, b, c, d, e, f] => some ⟨a, b, c, d, e, f⟩
  | _ => none

def broadcast : MacAddr := ⟨255, 255, 255, 255, 255, 255⟩

@[simp] theorem octets_length (m : MacAddr) : m.octets.length = 6 := rfl

/-- It fits into the hardware address field of a DHCP message. -/
theorem octets_length_le (m : MacAddr) : m.octets.length ≤ 16 := by
  rw [octets_length]
  decide

theorem tryFrom_eq_some_iff {bytes : List UInt8} {m : MacAddr} :
    tryFrom bytes = some m ↔ bytes = m.octets := by
  constructor
  · intro h
    match bytes, h with
    | [_, _, _, _, _, _], rfl => rfl
  · rintro rfl
    rfl

end MacAddr

/-! ### Time

`std::time::Instant` is the number of nanoseconds since an arbitrary origin, and
`std::time::Duration` a number of nanoseconds; both are plain `Nat`s. -/

namespace Duration

def fromSecs (secs : Nat) : Nat := secs * 1000000000

def fromMillis (millis : Nat) : Nat := millis * 1000000

def asSecs (d : Nat) : Nat := d / 1000000000

@[simp] theorem asSecs_fromSecs (secs : Nat) : asSecs (fromSecs secs) = secs := by
  simp [asSecs, fromSecs]

theorem fromSecs_le_fromSecs {a b : Nat} : fromSecs a ≤ fromSecs b ↔ a ≤ b := by
  simp only [fromSecs]
  omega

theorem fromSecs_add (a b : Nat) : fromSecs (a + b) = fromSecs a + fromSecs b := Nat.add_mul a b _

end Duration

end RustyRouter
