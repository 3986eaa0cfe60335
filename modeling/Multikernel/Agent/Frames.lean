import Mathlib.Data.UInt
/-!
# Frames on the agent's stream

`CallContext` (`runtime/agent/client.go`) writes the length of a request and its
text with `WriteFull` (`runtime/protocol/io.go`) and gives up the connection on any
error; `ServeConn` (`runtime/agent/server.go`) reads them with `io.ReadFull`. A
write takes any part of its bytes, a read returns any part of what has arrived.
-/

namespace Multikernel.Frames

abbrev Bytes := List UInt8

/-! ## Writing -/

/-- What `Write` returned: a count, and whether an error. -/
structure Written where
  count : Nat
  failed : Bool

/-- `WriteFull`: what went out, and whether it returned nil. -/
def writeFull : List Written → Bytes → Bytes × Bool
  | _, [] => ([], true)
  | [], _ => ([], false)
  | r :: rs, data =>
    if data.length < r.count then ([], false)
    else if r.failed ∨ r.count = 0 then (data.take r.count, false)
    else
      let next := writeFull rs (data.drop r.count)
      (data.take r.count ++ next.1, next.2)

def header (n : Nat) : Bytes := [UInt8.ofNat (n / 2 ^ 24), UInt8.ofNat (n / 2 ^ 16), UInt8.ofNat (n / 2 ^ 8), UInt8.ofNat n]

def frame (payload : Bytes) : Bytes := header payload.length ++ payload

/-- A call: its envelope, and how the two writes go. -/
structure Call where
  payload : Bytes
  head : List Written
  body : List Written

def Call.send (c : Call) : Bytes × Bool :=
  let h := writeFull c.head (header c.payload.length)
  if h.2 then
    let b := writeFull c.body c.payload
    (h.1 ++ b.1, b.2)
  else h

/-- The calls whose writes worked, up to the first failure. -/
def sent : List Call → List Bytes
  | [] => []
  | c :: cs => if c.send.2 then c.payload :: sent cs else []

def size (h : Bytes) : Nat := h.foldl (fun n b => n * 256 + b.toNat) 0

section Reading
variable {pieces : List Bytes} {payload rest : Bytes} {ps : List Bytes}

end Reading

end Multikernel.Frames
