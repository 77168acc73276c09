import RustyRouter.Net.Frame

/-! DNS messages, as far as the forwarder looks into them.

The forwarder copies and compares the first two bytes of a message, its transaction ID,
and asks the `dns_parser` crate for the questions of a query and for the times to live of
a response's answers. A `DnsParser` is any answer to that, together with how the crate
displays a name, a type and a class. -/
namespace RustyRouter.Dns

def dnsHeaderSize : Nat := 12

/-! ### Transaction IDs -/

/-- The transaction ID, of a message that is long enough to have one. -/
def xidOf : List UInt8 → Option UInt16
  | b0 :: b1 :: _ => some (Wire.be16 b0 b1)
  | _ => none

/-- `bytes[0] = b0; bytes[1] = b1`; `none` where an index is out of range. -/
def setXid (b0 b1 : UInt8) : List UInt8 → Option (List UInt8)
  | _ :: _ :: rest => some (b0 :: b1 :: rest)
  | _ => none

/-- The message under another transaction ID. -/
def withXid (xid : UInt16) (bytes : List UInt8) : Option (List UInt8) :=
  setXid (xid >>> 8).toUInt8 xid.toUInt8 bytes

/-- The message under the transaction ID of `query`. -/
def withXidOf (query bytes : List UInt8) : Option (List UInt8) :=
  match query with
  | b0 :: b1 :: _ => setXid b0 b1 bytes
  | _ => none

theorem withXid_eq_some (xid : UInt16) {bytes : List UInt8} (h : 2 ≤ bytes.length) :
    ∃ rest, withXid xid bytes = some rest ∧ rest.length = bytes.length ∧ xidOf rest = some xid := by
  match bytes, h with
  | _ :: _ :: rest, _ => exact ⟨_, rfl, rfl, by simp only [xidOf, Wire.be16_bytes]⟩

/-! ### Parsed messages -/

structure Question where
  /-- The labels of the name. -/
  qname : List (List UInt8)
  qtype : UInt16
  qclass : UInt16
  deriving DecidableEq, Repr

structure Packet where
  questions : List Question
  /-- The time to live of each answer. -/
  answerTtls : List UInt32
  deriving DecidableEq, Repr

structure DnsParser where
  parse : List UInt8 → Option Packet
  displayName : List (List UInt8) → List UInt8
  debugType : UInt16 → List UInt8
  debugClass : UInt16 → List UInt8

/-- `name:type:class` of the first question. -/
def getCacheKey (dns : DnsParser) (queryBytes : List UInt8) : Option (List UInt8) :=
  match dns.parse queryBytes with
  | none => none
  | some packet =>
    match packet.questions with
    | [] => none
    | q :: _ =>
      some (dns.displayName q.qname ++ [0x3a] ++ dns.debugType q.qtype ++ [0x3a] ++ dns.debugClass q.qclass)

/-! ### The wire layout

A parser of messages whose names are written out in full, and two queries, to run the
forwarder on. -/

namespace Plain

/-- A name, and what follows it. A label takes at least one byte, so the number of bytes
bounds the labels. -/
def readName : Nat → List UInt8 → Option (List (List UInt8) × List UInt8)
  | fuel + 1, length :: rest =>
    if length = 0 then some ([], rest)
    else if 64 ≤ length ∨ rest.length < length.toNat then none
    else (readName fuel (rest.drop length.toNat)).map fun (labels, rest') =>
      (rest.take length.toNat :: labels, rest')
  | _, _ => none

def readQuestions : Nat → List UInt8 → Option (List Question × List UInt8)
  | 0, bytes => some ([], bytes)
  | count + 1, bytes =>
    match readName bytes.length bytes with
    | some (qname, t0 :: t1 :: c0 :: c1 :: rest) =>
      (readQuestions count rest).map fun (questions, rest') =>
        (⟨qname, Wire.be16 t0 t1, Wire.be16 c0 c1⟩ :: questions, rest')
    | _ => none

def readTtls : Nat → List UInt8 → Option (List UInt32)
  | 0, _ => some []
  | count + 1, bytes =>
    match readName bytes.length bytes with
    | some (_, _ :: _ :: _ :: _ :: t0 :: t1 :: t2 :: t3 :: l0 :: l1 :: rest) =>
      if rest.length < (Wire.be16 l0 l1).toNat then none
      else (readTtls count (rest.drop (Wire.be16 l0 l1).toNat)).map (Wire.be32 t0 t1 t2 t3 :: ·)
    | _ => none

def parse : List UInt8 → Option Packet
  | _ :: _ :: _ :: _ :: q0 :: q1 :: a0 :: a1 :: _ :: _ :: _ :: _ :: sections =>
    match readQuestions (Wire.be16 q0 q1).toNat sections with
    | none => none
    | some (questions, answers) => (readTtls (Wire.be16 a0 a1).toNat answers).map (⟨questions, ·⟩)
  | _ => none

/-- `A`, `AAAA`, or the bare code. -/
def typeName (code : UInt16) : List UInt8 :=
  if code = 1 then [0x41]
  else if code = 28 then [0x41, 0x41, 0x41, 0x41]
  else [(code >>> 8).toUInt8, code.toUInt8]

/-- `IN`, or the bare code. -/
def className (code : UInt16) : List UInt8 :=
  if code = 1 then [0x49, 0x4e] else [(code >>> 8).toUInt8, code.toUInt8]

def dnsParser : DnsParser where
  parse := parse
  displayName := List.intercalate [0x2e]
  debugType := typeName
  debugClass := className

/-- A query for the `A` record of a name of one letter. -/
def query (letter : UInt8) : List UInt8 :=
  [0, 1, 1, 0, 0, 1, 0, 0, 0, 0, 0, 0, 1, letter, 0, 0, 1, 0, 1]

/-- An answer to it, under the given transaction ID. -/
def reply (xid : UInt16) (letter : UInt8) : List UInt8 :=
  [(xid >>> 8).toUInt8, xid.toUInt8, 0x81, 0x80, 0, 1, 0, 1, 0, 0, 0, 0, 1, letter, 0, 0, 1, 0, 1,
    1, letter, 0, 0, 1, 0, 1, 0, 0, 0, 60, 0, 4, 192, 0, 2, 1]

example : dnsParser.parse (reply 7 0x61) = some ⟨[⟨[[0x61]], 1, 1⟩], [60]⟩ := by decide +kernel

end Plain

end RustyRouter.Dns
