import ShadowExtras.Foundation.Bytes

/-!
# Node lists of the torrent authority

The messages in which the torrent authority tells its clients where the servers are: a byte with the
number of entries, and for each entry the four bytes of an address and the two bytes of a port,
copied from memory. `nodeMessage` writes such a message and `nodesOf` reads it; the byte that counts
the entries can count up to 255 of them (`nodesOf_nodeMessage`).
-/

namespace ShadowExtras.Torrent

open Foundation

/-- An `in_addr_t` as its bytes in memory. -/
abbrev InAddr := { bytes : Bytes // bytes.length = 4 }

/-- An `in_port_t` as its bytes in memory. -/
abbrev InPort := { bytes : Bytes // bytes.length = 2 }

/-- The address with these bytes. -/
def InAddr.of (a b c d : Byte) : InAddr := ⟨[a, b, c, d], rfl⟩

/-- The port with these bytes. -/
def InPort.of (p q : Byte) : InPort := ⟨[p, q], rfl⟩

/-- A server as the clients know it. -/
structure Node where
  addr : InAddr
  port : InPort
  deriving DecidableEq, Repr

/-- An entry of a node list. -/
def Node.bytes (node : Node) : Bytes := node.addr.1 ++ node.port.1

/-- The length of an entry. -/
def entryLength : ℕ := 6

@[simp] theorem Node.length_bytes (node : Node) : node.bytes.length = entryLength := by
  rw [Node.bytes, List.length_append, node.addr.2, node.port.2]
  rfl

/-- The message with these entries; the count is stored into a byte. -/
def nodeMessage (nodes : List Node) : Bytes := nodes.length.toUInt8 :: nodes.flatMap Node.bytes

@[simp] theorem length_nodeMessage (nodes : List Node) :
    (nodeMessage nodes).length = 1 + entryLength * nodes.length := by
  induction nodes with
  | nil => rfl
  | cons node nodes ih =>
    simp only [nodeMessage, List.length_cons, List.flatMap_cons, List.length_append,
      Node.length_bytes, Nat.mul_add, Nat.mul_one] at ih ⊢
    omega

/-- The first entries of a list, at most `count` of them. -/
def takeNodes : ℕ → Bytes → List Node
  | count + 1, a :: b :: c :: d :: p :: q :: rest =>
    { addr := ⟨[a, b, c, d], rfl⟩, port := ⟨[p, q], rfl⟩ } :: takeNodes count rest
  | _, _ => []

/-- An entry and those behind it. -/
theorem takeNodes_bytes_append (count : ℕ) (node : Node) (rest : Bytes) :
    takeNodes (count + 1) (node.bytes ++ rest) = node :: takeNodes count rest := by
  obtain ⟨⟨addr, haddr⟩, ⟨port, hport⟩⟩ := node
  match addr, haddr, port, hport with
  | [a, b, c, d], _, [p, q], _ => rfl

/-- Reading the entries that were written, whatever follows them. -/
theorem takeNodes_flatMap (nodes : List Node) (rest : Bytes) :
    takeNodes nodes.length (nodes.flatMap Node.bytes ++ rest) = nodes := by
  induction nodes with
  | nil => simp [takeNodes]
  | cons node nodes ih =>
    rw [List.flatMap_cons, List.append_assoc, List.length_cons, takeNodes_bytes_append, ih]

/-- The entries of a message, according to its count. -/
def nodesOf : Bytes → List Node
  | [] => []
  | count :: entries => takeNodes count.toNat entries

/-- A message that the count is large enough for says what was written. -/
theorem nodesOf_nodeMessage {nodes : List Node} (h : nodes.length < 256) :
    nodesOf (nodeMessage nodes) = nodes := by
  have hcount : nodes.length.toUInt8.toNat = nodes.length := by
    rw [Nat.toUInt8, UInt8.toNat_ofNat']
    exact Nat.mod_eq_of_lt h
  rw [nodeMessage, nodesOf, hcount]
  simpa using takeNodes_flatMap nodes []

end ShadowExtras.Torrent
