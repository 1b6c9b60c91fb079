/-!
# IP addresses

The parts of the standard library's `std::net` that the modelled code calls: the two address
types, their classification, and the parser of `IpAddr`.
-/

namespace Tako.Net

structure Ipv4Addr where
  o0 : UInt8
  o1 : UInt8
  o2 : UInt8
  o3 : UInt8
  deriving DecidableEq, Repr

/-- An IPv6 address, by its eight segments. -/
structure Ipv6Addr where
  s0 : UInt16
  s1 : UInt16
  s2 : UInt16
  s3 : UInt16
  s4 : UInt16
  s5 : UInt16
  s6 : UInt16
  s7 : UInt16
  deriving DecidableEq, Repr

inductive IpAddr where
  | v4 (a : Ipv4Addr)
  | v6 (a : Ipv6Addr)
  deriving DecidableEq, Repr

/-! ## Classification -/

namespace Ipv4Addr

def isLoopback (a : Ipv4Addr) : Bool := a.o0 = 127

def isPrivate (a : Ipv4Addr) : Bool :=
  a.o0 = 10 || (a.o0 = 172 && 16 ≤ a.o1 && a.o1 ≤ 31) || (a.o0 = 192 && a.o1 = 168)

def isLinkLocal (a : Ipv4Addr) : Bool := a.o0 = 169 && a.o1 = 254

def isUnspecified (a : Ipv4Addr) : Bool := a = ⟨0, 0, 0, 0⟩

def isBroadcast (a : Ipv4Addr) : Bool := a = ⟨255, 255, 255, 255⟩

end Ipv4Addr

namespace Ipv6Addr

def isLoopback (a : Ipv6Addr) : Bool := a = ⟨0, 0, 0, 0, 0, 0, 0, 1⟩

def isUnspecified (a : Ipv6Addr) : Bool := a = ⟨0, 0, 0, 0, 0, 0, 0, 0⟩

def isMulticast (a : Ipv6Addr) : Bool := a.s0 &&& 0xff00 = 0xff00

/-- The address `a.b.c.d` of `::ffff:a.b.c.d`. -/
def toIpv4Mapped (a : Ipv6Addr) : Option Ipv4Addr :=
  if a.s0 = 0 ∧ a.s1 = 0 ∧ a.s2 = 0 ∧ a.s3 = 0 ∧ a.s4 = 0 ∧ a.s5 = 0xffff then
    some ⟨(a.s6 >>> 8).toUInt8, a.s6.toUInt8, (a.s7 >>> 8).toUInt8, a.s7.toUInt8⟩
  else
    none

end Ipv6Addr

/-! ## Parsing -/

/-- A reader of the front of a text. -/
abbrev Reader (α : Type) := List Char → Option (α × List Char)

def readGivenChar (c : Char) : Reader Unit
  | d :: s => if c = d then some ((), s) else none
  | [] => none

/-- A reader behind the separator that stands before every group but the first. -/
def readSeparator (sep : Char) (index : Nat) (inner : Reader α) : Reader α := fun s =>
  if index = 0 then inner s
  else do
    let (_, s) ← readGivenChar sep s
    inner s

def digit? (radix : Nat) (c : Char) : Option Nat :=
  let v :=
    if '0' ≤ c ∧ c ≤ '9' then some (c.toNat - '0'.toNat)
    else if 'a' ≤ c ∧ c ≤ 'z' then some (c.toNat - 'a'.toNat + 10)
    else if 'A' ≤ c ∧ c ≤ 'Z' then some (c.toNat - 'A'.toNat + 10)
    else none
  v.filter (· < radix)

/-- The digits at the front of a text, as their number and their value. -/
def readDigits (radix : Nat) (count value : Nat) : List Char → Nat × Nat × List Char
  | [] => (count, value, [])
  | c :: s =>
    match digit? radix c with
    | some d => readDigits radix (count + 1) (value * radix + d) s
    | none => (count, value, c :: s)

/-- `read_number`: at most `maxDigits` digits and a value below `bound`, with a leading zero only
where it is allowed. -/
def readNumber (radix maxDigits bound : Nat) (allowZeroPrefix : Bool) : Reader Nat := fun s =>
  let (count, value, rest) := readDigits radix 0 0 s
  if count = 0 ∨ count > maxDigits ∨ value ≥ bound then none
  else if ¬allowZeroPrefix ∧ s.head? = some '0' ∧ count > 1 then none
  else some (value, rest)

def readOctet (index : Nat) : Reader UInt8 := fun s => do
  let (n, s) ← readSeparator '.' index (readNumber 10 3 256 false) s
  some (UInt8.ofNat n, s)

def readIpv4Addr : Reader Ipv4Addr := fun s => do
  let (o0, s) ← readOctet 0 s
  let (o1, s) ← readOctet 1 s
  let (o2, s) ← readOctet 2 s
  let (o3, s) ← readOctet 3 s
  some (⟨o0, o1, o2, o3⟩, s)

/-- `read_groups` into the `slots` slots from `index` on: the groups read, and whether the last two
of them are an IPv4 address. -/
def readGroups : (slots index : Nat) → List Char → List UInt16 × Bool × List Char
  | 0, _, s => ([], false, s)
  | slots + 1, index, s =>
    match if 0 < slots then readSeparator ':' index readIpv4Addr s else none with
    | some (a, s) =>
      ([a.o0.toUInt16 <<< 8 ||| a.o1.toUInt16, a.o2.toUInt16 <<< 8 ||| a.o3.toUInt16], true, s)
    | none =>
      match readSeparator ':' index (readNumber 16 4 65536 true) s with
      | some (n, s) =>
        let (groups, ipv4, s) := readGroups slots (index + 1) s
        (UInt16.ofNat n :: groups, ipv4, s)
      | none => ([], false, s)

def ofSegments : List UInt16 → Option Ipv6Addr
  | [s0, s1, s2, s3, s4, s5, s6, s7] => some ⟨s0, s1, s2, s3, s4, s5, s6, s7⟩
  | _ => none

def readIpv6Addr : Reader Ipv6Addr := fun s => do
  let (head, headIpv4, s) := readGroups 8 0 s
  if head.length = 8 then
    let a ← ofSegments head
    return (a, s)
  -- an IPv4 part is not allowed before `::`
  if headIpv4 then none
  let (_, s) ← readGivenChar ':' s
  let (_, s) ← readGivenChar ':' s
  -- the `::` stands for at least one group
  let (tail, _, s) := readGroups (8 - (head.length + 1)) 0 s
  let a ← ofSegments (head ++ List.replicate (8 - head.length - tail.length) 0 ++ tail)
  some (a, s)

/-- `str::parse::<IpAddr>`. -/
def parseIpAddr (text : String) : Option IpAddr :=
  let s := text.toList
  match readIpv4Addr s with
  | some (a, rest) => if rest.isEmpty then some (.v4 a) else none
  | none =>
    match readIpv6Addr s with
    | some (a, rest) => if rest.isEmpty then some (.v6 a) else none
    | none => none

end Tako.Net
