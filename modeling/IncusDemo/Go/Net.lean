/-
  IncusDemo.Go.Net

  The functions of Go's `net` package that decide who a client is:
  `net.ParseIP` (with the parsers of `net/netip` behind it), `IP.To4`,
  `net.SplitHostPort`, `net.ParseCIDR` and `IPNet.Contains`.  Strings are read as
  lists of characters; every parser rejects a character outside ASCII, as the
  byte parsers do.
-/

import IncusDemo.Go.Std

namespace IncusDemo
namespace Go

/-- A `net.IP` in its 16-byte form. -/
abbrev IP := BitVec 128

/-- The last index of `c` in `s` (`strings.LastIndexByte`). -/
def lastIndexOf (c : Char) (s : List Char) : Option Nat :=
  (s.reverse.idxOf? c).map fun i => s.length - 1 - i

/-- `net.SplitHostPort`. -/
def splitHostPort (hostport : String) : Except Error (String × String) :=
  let s := hostport.toList
  match lastIndexOf ':' s with
  | none => .error "missing port in address"
  | some i =>
    let port := String.ofList (s.drop (i + 1))
    if s.head? = some '[' then
      match s.idxOf? ']' with
      | none => .error "missing ']' in address"
      | some e =>
        if e + 1 = s.length then .error "missing port in address"
        else if e + 1 ≠ i then
          if s[e + 1]? = some ':' then .error "too many colons in address"
          else .error "missing port in address"
        else if (s.drop 1).contains '[' then .error "unexpected '[' in address"
        else if (s.drop (e + 1)).contains ']' then .error "unexpected ']' in address"
        else .ok (String.ofList ((s.take e).drop 1), port)
    else
      let host := s.take i
      if host.contains ':' then .error "too many colons in address"
      else if s.contains '[' then .error "unexpected '[' in address"
      else if s.contains ']' then .error "unexpected ']' in address"
      else .ok (String.ofList host, port)

/-! ## Addresses -/

/-- The scan state of `parseIPv4Fields`: finished octets, the octet being read
    and how many of its digits were seen. -/
structure IPv4Scan where
  fields : List Nat
  val : Nat
  digLen : Nat

/-- One character of `parseIPv4Fields`.  Fields are separated by dots, each of one to three
    digits without a leading zero, at most 255. -/
def IPv4Scan.char (st : IPv4Scan) (c : Char) : Option IPv4Scan :=
  if c.isDigit then
    if st.digLen = 1 ∧ st.val = 0 then none
    else
      let val := st.val * 10 + (c.toNat - '0'.toNat)
      if val > 255 then none else some { st with val := val, digLen := st.digLen + 1 }
  else if c = '.' then
    if st.digLen = 0 ∨ st.fields.length = 3 then none
    else some { fields := st.fields ++ [st.val], val := 0, digLen := 0 }
  else none

/-- `netip.parseIPv4Fields`: the four octets of a dotted address. -/
def parseIPv4Fields (s : List Char) : Option (List Nat) :=
  match s.foldlM IPv4Scan.char { fields := [], val := 0, digLen := 0 } with
  | none => none
  | some st =>
    if st.digLen = 0 ∨ st.fields.length < 3 then none else some (st.fields ++ [st.val])

/-- The value of a hexadecimal digit. -/
def hexDigit (c : Char) : Option Nat :=
  if c.isDigit then some (c.toNat - '0'.toNat)
  else if 'a' ≤ c ∧ c ≤ 'f' then some (c.toNat - 'a'.toNat + 10)
  else if 'A' ≤ c ∧ c ≤ 'F' then some (c.toNat - 'A'.toNat + 10)
  else none

/-- The longest run of hexadecimal digits at the front, its value, and the rest. -/
def hexRun : List Char → Nat × Nat × List Char
  | [] => (0, 0, [])
  | c :: cs =>
    match hexDigit c with
    | none => (0, 0, c :: cs)
    | some d =>
      let (len, acc, rest) := hexRun cs
      (len + 1, d * 16 ^ len + acc, rest)

/-- The loop of `netip.parseIPv6` over the groups that are left.  `bytes` are the bytes
    read so far and `ellipsis` the position of `::` among them; `fuel` bounds the
    groups, of which an address has at most eight. -/
def parseIPv6Groups : Nat → List Nat → Option Nat → List Char →
    Option (List Nat × Option Nat)
  | 0, bytes, ellipsis, s => if s = [] then some (bytes, ellipsis) else none
  | fuel + 1, bytes, ellipsis, s =>
    let (len, acc, rest) := hexRun s
    if len = 0 ∨ len > 4 then none
    else if rest.head? = some '.' then
      -- A trailing IPv4 address fills the last four bytes.
      if ellipsis = none ∧ bytes.length ≠ 12 then none
      else if bytes.length + 4 > 16 then none
      else (parseIPv4Fields s).map fun v4 => (bytes ++ v4, ellipsis)
    else
      let bytes := bytes ++ [acc / 256, acc % 256]
      match rest with
      | [] => some (bytes, ellipsis)
      | c :: rest =>
        if c ≠ ':' then none
        else
          match rest with
          | [] => none
          | ':' :: rest =>
            if ellipsis ≠ none then none
            else if rest = [] then some (bytes, some bytes.length)
            else parseIPv6Groups fuel bytes (some bytes.length) rest
          | rest => parseIPv6Groups fuel bytes ellipsis rest

/-- Sixteen bytes from the groups read, with `::` standing for at least one zero group. -/
def expandEllipsis : List Nat × Option Nat → Option (List Nat)
  | (bytes, none) => if bytes.length < 16 then none else some bytes
  | (bytes, some e) =>
    if bytes.length < 16 then
      some (bytes.take e ++ List.replicate (16 - bytes.length) 0 ++ bytes.drop e)
    else none

/-- The address of a list of bytes, the most significant first. -/
def ofBytes (bytes : List Nat) : IP := BitVec.ofNat 128 (bytes.foldl (fun a b => a * 256 + b) 0)

/-- `netip.parseIPv6` for an address without a zone. -/
def parseIPv6 (s : List Char) : Option IP :=
  match s with
  | ':' :: ':' :: rest =>
    if rest = [] then some 0
    else ((parseIPv6Groups 8 [] (some 0) rest).bind expandEllipsis).map ofBytes
  | s => ((parseIPv6Groups 8 [] none s).bind expandEllipsis).map ofBytes

/-- The 16-byte form of an IPv4 address (`::ffff:a.b.c.d`). -/
def ofIPv4 (fields : List Nat) : IP := ofBytes (List.replicate 10 0 ++ [255, 255] ++ fields)

/-- The first of `.`, `:` and `%` in an address, which decides its family. -/
def family (s : String) : Option Char := s.toList.find? fun c => c = '.' ∨ c = ':' ∨ c = '%'

/-- `net.ParseIP`; an address with a zone is no IP. -/
def parseIP (s : String) : Option IP :=
  match family s with
  | some '.' => (parseIPv4Fields s.toList).map ofIPv4
  | some ':' => if s.toList.contains '%' then none else parseIPv6 s.toList
  | _ => none

/-- `ip.To4() != nil`. -/
def isIPv4 (ip : IP) : Bool := ip >>> 32 == (0xffff : IP)

example : parseIP "10.0.0.1" = parseIP "::ffff:a00:1" := by decide
example : parseIP "2001:DB8::1" = parseIP "2001:db8:0:0:0:0:0:1" := by decide

/-! ## Networks -/

/-- A `net.IPNet`: its number in the 16-byte form, and the ones of its mask in that form (of which
    the mask of an IPv4 network has 96 more than it says). -/
structure IPNet where
  number : IP
  ones : Nat
  deriving DecidableEq

/-- The network of an address (`ip.Mask`). -/
def IPNet.of (ip : IP) (ones : Nat) : IPNet := ⟨ip >>> (128 - ones) <<< (128 - ones), ones⟩

/-- `network.Contains(ip)`: addresses of four bytes are only in networks of four bytes. -/
def IPNet.contains (n : IPNet) (ip : IP) : Bool :=
  isIPv4 ip == isIPv4 n.number && ip >>> (128 - n.ones) == n.number >>> (128 - n.ones)

/-- `dtoi` of package `net`: a decimal number below `big`. -/
def dtoi (s : List Char) : Option Nat :=
  if s = [] then none
  else s.foldlM (fun n c =>
    if c.isDigit then
      let n := n * 10 + (c.toNat - '0'.toNat)
      if n ≥ 0xFFFFFF then none else some n
    else none) 0

/-- `net.ParseCIDR`, without the address. -/
def parseCIDR (s : String) : Except Error IPNet :=
  match s.toList.idxOf? '/' with
  | none => .error "invalid CIDR address"
  | some i =>
    let addr := String.ofList (s.toList.take i)
    match parseIP addr, dtoi (s.toList.drop (i + 1)) with
    | some ip, some n =>
      let bitLen := if family addr = some '.' then 32 else 128
      if n > bitLen then .error "invalid CIDR address"
      else .ok (IPNet.of ip (n + (128 - bitLen)))
    | _, _ => .error "invalid CIDR address"

example : (parseCIDR "10.0.0.0/8").map (fun n => (parseIP "10.1.2.3").map n.contains) =
    .ok (some true) := by decide
example : (parseCIDR "::/0").map (fun n => (parseIP "10.1.2.3").map n.contains) =
    .ok (some false) := by decide

end Go
end IncusDemo
