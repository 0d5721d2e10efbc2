import ChatRoom.Text

/-!
# Addresses

Where a peer is on the network: the number of its host, in one of the two versions of the Internet
protocol, and the number of a service on that host.

`Address.parse?` reads every spelling of an address that has numbers only, and `Address.text` writes
the shortest.
-/

namespace ChatRoom

open Text

/-- Where a peer is on the network. -/
inductive Address where
  | v4 (octets : Vector UInt8 4) (service : UInt16)
  /-- A host of version 6. The scope says which of its links an address is on that many links have;
  zero is any. -/
  | v6 (groups : Vector UInt16 8) (scope : UInt32) (service : UInt16)
  deriving DecidableEq

namespace Address

/-! ## Reading -/

/-- A decimal number up to 255. Only zero itself begins with a zero. -/
def octet? (cs : List Char) : Option UInt8 :=
  match number? 10 cs with
  | none => none
  | some n => if n < 256 ∧ (cs.head? ≠ some '0' ∨ cs.length = 1) then some n.toUInt8 else none

def octets? (cs : List Char) : Option (Vector UInt8 4) :=
  match (pieces '.' cs).map octet? with
  | [some a, some b, some c, some d] => some #v[a, b, c, d]
  | _ => none

/-- A hexadecimal number of at most four digits. -/
def group? (cs : List Char) : Option UInt16 :=
  if 4 < cs.length then none else (number? 16 cs).map (·.toUInt16)

/-- The group that two octets make. -/
def pair (high low : UInt8) : UInt16 := high.toUInt16 * 256 + low.toUInt16

/-- Groups, of which the last two may be written as four octets. -/
def groupsBeforeOctets? : List (List Char) → Option (List UInt16)
  | [] => some []
  | [last] =>
    match octets? last with
    | some octets => some [pair octets[0] octets[1], pair octets[2] octets[3]]
    | none => (group? last).map ([·])
  | cs :: rest =>
    match group? cs, groupsBeforeOctets? rest with
    | some group, some groups => some (group :: groups)
    | _, _ => none

/-- The pieces of a text between colons, and none if the text is empty. -/
def parts (cs : List Char) : List (List Char) := if cs = [] then [] else pieces ':' cs

/-- What stands before and after the first two colons in a row. -/
def gap? : List Char → Option (List Char × List Char)
  | [] => none
  | ':' :: ':' :: rest => some ([], rest)
  | c :: rest => (gap? rest).map fun (front, back) => (c :: front, back)

/-- Eight groups with colons between them. Two colons in a row, of which there may be one pair,
stand for all groups that are missing, and at least one is. -/
def groups? (cs : List Char) : Option (Vector UInt16 8) :=
  let groups : Option (List UInt16) :=
    match gap? cs with
    | none => groupsBeforeOctets? (parts cs)
    | some (front, back) =>
      match (parts front).mapM group?, groupsBeforeOctets? (parts back) with
      | some front, some back =>
        let missing := 8 - (front.length + back.length)
        if missing = 0 then none else some (front ++ List.replicate missing 0 ++ back)
      | _, _ => none
  groups.bind fun groups => if h : groups.length = 8 then some ⟨groups.toArray, h⟩ else none

/-- A decimal number, with any number of zeros in front, below `limit`. -/
def below? (limit : Nat) (cs : List Char) : Option Nat :=
  (number? 10 cs).filter (· < limit)

/-- The scope that follows a percent sign, if there is one. -/
def scope? : List Char → Option UInt32
  | [] => some 0
  | '%' :: cs => (below? UInt32.size cs).map (·.toUInt32)
  | _ => none

/-- The service that follows a colon. -/
def service? : List Char → Option UInt16
  | ':' :: cs => (below? UInt16.size cs).map (·.toUInt16)
  | _ => none

/-- Reads `a.b.c.d:service`, or `[groups]:service`, or `[groups%scope]:service`. -/
def parse? (text : String) : Option Address :=
  match text.toList with
  | '[' :: cs =>
    let host := cs.takeWhile (· ≠ ']')
    let groups := host.takeWhile (· ≠ '%')
    let scope := host.dropWhile (· ≠ '%')
    match groups? groups, scope? scope, service? ((cs.dropWhile (· ≠ ']')).drop 1) with
    | some groups, some scope, some service => some (.v6 groups scope service)
    | _, _, _ => none
  | cs =>
    match octets? (cs.takeWhile (· ≠ ':')), service? (cs.dropWhile (· ≠ ':')) with
    | some octets, some service => some (.v4 octets service)
    | _, _ => none

/-! ## Writing -/

def octetsText (octets : List UInt8) : String := ".".intercalate (octets.map toString)

def groupText (group : UInt16) : String := .ofList (Nat.toDigits 16 group.toNat)

def groupsText (groups : List UInt16) : String := ":".intercalate (groups.map groupText)

/-- How many groups in a row are zero from the `i`-th on. -/
def zerosAt (groups : List UInt16) (i : Nat) : Nat :=
  ((groups.drop i).takeWhile (· = 0)).length

/-- Where the most groups in a row are zero; the first such place. -/
def longestZeros (groups : List UInt16) : Nat :=
  (List.range groups.length).foldl
    (fun best i => if zerosAt groups best < zerosAt groups i then i else best) 0

/-- A host of version 6. The longest row of zeros is left out if it is more than one, and a host of
version 4 that is mapped to version 6 keeps its octets. -/
def hostText (groups : List UInt16) : String :=
  match groups with
  | [0, 0, 0, 0, 0, 0xFFFF, high, low] =>
    "::ffff:" ++
      octetsText [(high / 256).toUInt8, high.toUInt8, (low / 256).toUInt8, low.toUInt8]
  | _ =>
    let start := longestZeros groups
    let count := zerosAt groups start
    if 1 < count then
      groupsText (groups.take start) ++ "::" ++ groupsText (groups.drop (start + count))
    else groupsText groups

/-- The usual spelling of an address. -/
def text : Address → String
  | v4 octets service => octetsText octets.toList ++ ":" ++ toString service
  | v6 groups scope service =>
    let scope := if scope = 0 then "" else "%" ++ toString scope
    "[" ++ hostText groups.toList ++ scope ++ "]:" ++ toString service

end Address

end ChatRoom
