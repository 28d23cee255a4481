/-
Socket addresses: an address of either version of the internet protocol, and a port. Everything
after the last colon of a text is the port, so what stands before it cannot change the port.
-/
import ScriptedModel.Text.Numeral
import ScriptedModel.Text.Split

namespace ScriptedModel.Network

/-! ## Version four -/

/-- An address of version four. -/
structure Ipv4 where
  octets : List Nat
  length_eq : octets.length = 4
  octet_lt : ∀ o ∈ octets, o < UInt8.size
  deriving DecidableEq, Repr

namespace Ipv4

/-- An octet: up to three decimal digits, the first a zero only if it stands alone. -/
def octet? (ds : List Char) : Option Nat :=
  if ds.length ≤ 3 ∧ (ds.head? = some '0' → ds.length = 1) then Numeral.value? 10 ds else none

/-- The address that a dotted quad spells. -/
def ofText? (cs : List Char) : Option Ipv4 := do
  let os ← (Split.pieces '.' cs).mapM octet?
  if h : os.length = 4 ∧ ∀ o ∈ os, o < UInt8.size then some ⟨os, h.1, h.2⟩ else none

/-- The dotted quad of an address. -/
def text (a : Ipv4) : List Char := ['.'].intercalate (a.octets.map (Numeral.digits 10))

/-- The two groups that an address fills in one of version six. -/
def groups (a : Ipv4) : List Nat :=
  match a.octets with
  | [p, q, r, s] => [p * 256 + q, r * 256 + s]
  | _ => []

end Ipv4

/-! ## Version six -/

/-- An address of version six. -/
structure Ipv6 where
  groups : List Nat
  length_eq : groups.length = 8
  group_lt : ∀ g ∈ groups, g < UInt16.size
  deriving DecidableEq, Repr

namespace Ipv6

/-- A group: up to four hexadecimal digits. -/
def group? (ds : List Char) : Option Nat := if ds.length ≤ 4 then Numeral.value? 16 ds else none

/-- The groups between colons; none in an empty text. -/
def groups? (cs : List Char) : Option (List Nat) :=
  if cs = [] then some [] else (Split.pieces ':' cs).mapM group?

/-- The groups between colons, the last two of which may be a dotted quad. -/
def groupsWithQuad? (cs : List Char) : Option (List Nat) :=
  match (Split.pieces ':' cs).reverse with
  | [] => none
  | piece :: before =>
    match Ipv4.ofText? piece with
    | some a => (before.reverse.mapM group?).map (· ++ a.groups)
    | none => groups? cs

/-- What stands before and after the first two colons in a row. -/
def atGap? : List Char → Option (List Char × List Char)
  | ':' :: ':' :: cs => some ([], cs)
  | c :: cs => (atGap? cs).map fun p => (c :: p.1, p.2)
  | [] => none

/-- All groups of a text; two colons in a row stand for one or more zeros. -/
def allGroups? (cs : List Char) : Option (List Nat) :=
  match atGap? cs with
  | none => groupsWithQuad? cs
  | some (before, after) => do
    let front ← groups? before
    let back ← groupsWithQuad? after
    if front.length + back.length ≤ 7 then
      some (front ++ List.replicate (8 - front.length - back.length) 0 ++ back)
    else none

/-- The address that a text spells. -/
def ofText? (cs : List Char) : Option Ipv6 := do
  let gs ← allGroups? cs
  if h : gs.length = 8 ∧ ∀ g ∈ gs, g < UInt16.size then some ⟨gs, h.1, h.2⟩ else none

/-- The dotted quad within an address that stands for one of version four. -/
def quad? (a : Ipv6) : Option (List Nat) :=
  match a.groups with
  | [0, 0, 0, 0, 0, 0xFFFF, g, h] => some [g / 256, g % 256, h / 256, h % 256]
  | _ => none

/-- How many zeros a list begins with. -/
def leadingZeros (gs : List Nat) : Nat := (gs.takeWhile (· = 0)).length

/-- The place and the length of the longest run of zeros, the first of several. -/
def longestRun : List Nat → Nat × Nat
  | [] => (0, 0)
  | g :: gs =>
    let (i, n) := longestRun gs
    if n ≤ leadingZeros (g :: gs) then (0, leadingZeros (g :: gs)) else (i + 1, n)

/-- Groups between colons. -/
def joined (gs : List Nat) : List Char := [':'].intercalate (gs.map (Numeral.digits 16))

/-- The text of an address: the longest run of two or more zeros is left out, and an address that
stands for one of version four ends in its dotted quad. -/
def text (a : Ipv6) : List Char :=
  match a.quad? with
  | some os => "::ffff:".toList ++ ['.'].intercalate (os.map (Numeral.digits 10))
  | none =>
    let (i, n) := longestRun a.groups
    if 2 ≤ n then joined (a.groups.take i) ++ "::".toList ++ joined (a.groups.drop (i + n))
    else joined a.groups

end Ipv6

/-! ## Hosts -/

/-- The part of a socket address before the port. An address of version six may have a scope; the
scope zero is none. -/
inductive Host
  | v4 (address : Ipv4)
  | v6 (address : Ipv6) (scope : Nat)
  deriving DecidableEq, Repr

namespace Host

/-- The bound of scopes. -/
def scopeBound : Nat := UInt32.size

/-- The host that stands between brackets: an address, and a scope after a percent sign. -/
def bracketed? (cs : List Char) : Option Host :=
  match Split.atFirst? '%' cs with
  | none => (Ipv6.ofText? cs).map (.v6 · 0)
  | some (address, scope) => do
    let a ← Ipv6.ofText? address
    let n ← Numeral.value? 10 scope
    if n < scopeBound then some (.v6 a n) else none

/-- The host that a text spells. -/
def ofText? : List Char → Option Host
  | '[' :: cs =>
    match cs.reverse with
    | ']' :: r => bracketed? r.reverse
    | _ => none
  | cs => (Ipv4.ofText? cs).map .v4

/-- The text of a host. -/
def text : Host → List Char
  | .v4 a => a.text
  | .v6 a 0 => '[' :: (a.text ++ [']'])
  | .v6 a (n + 1) => '[' :: (a.text ++ '%' :: (Numeral.digits 10 (n + 1) ++ [']']))

end Host

/-! ## Socket addresses -/

/-- A host and a port. -/
structure SocketAddress where
  host : Host
  port : UInt16
  deriving DecidableEq, Repr

namespace SocketAddress

/-- The port that a text spells. -/
def port? (cs : List Char) : Option UInt16 := do
  let n ← Numeral.value? 10 cs
  if n < UInt16.size then some n.toUInt16 else none

/-- The socket address that a text spells. -/
def ofText? (cs : List Char) : Option SocketAddress := do
  let (host, port) ← Split.atLast? ':' cs
  return ⟨← Host.ofText? host, ← port? port⟩

/-- The text of a socket address. -/
def text (a : SocketAddress) : String :=
  String.ofList (a.host.text ++ ':' :: Numeral.digits 10 a.port.toNat)

end SocketAddress

end ScriptedModel.Network
