import Bootloader.Uefi.Services

/-!
# Queries whose answer has to be measured first

Several firmware calls fill a buffer and say how large it has to be when it is too small.
`sizedQuery` is the way to make such a call: ask with what there is, and if that was too small ask
once more with a fresh buffer of the size the firmware named, and some more.

It is a program over four requests of its own (`SizedQuery.Request`), so what it does is fixed for
every query, every allocator and every allowance.
-/

namespace Bootloader.Uefi

namespace SizedQuery

/-- What a measured query asks for: memory, the query itself, and how much more room than the
firmware named. -/
inductive Request where
  | allocate (size : UInt64)
  | free (buffer : UInt64)
  | query (size buffer : UInt64)
  | padding
deriving DecidableEq, Repr

/-- An address or zero; nothing; a status and the size the firmware now names; a size. -/
abbrev Request.Reply : Request → Type
  | allocate .. => UInt64
  | free .. => Unit
  | query .. => Answer UInt64
  | padding => UInt64

end SizedQuery

/-- The surroundings of a measured query. -/
abbrev SizedQuery : Interface := ⟨SizedQuery.Request, SizedQuery.Request.Reply⟩

namespace SizedQuery

/-- A buffer that a query has filled: where it is, how much of it the query says it filled, and
how large it is. -/
structure Filled where
  buffer : UInt64
  size : UInt64
  allocated : UInt64
deriving DecidableEq, Repr

/-- How a measured query ends.  The causes of failure: the first call failed and not for want of
room; there was no memory for a buffer; the buffer was too small again; the second call failed in
another way. -/
inductive Outcome where
  | filled (result : Filled)
  | queryFailed (status : Status)
  | allocationFailed
  | stillTooSmall
  | fetchFailed (status : Status)
deriving DecidableEq, Repr

/-- The last status, that of a failed allocation included. -/
def Outcome.status : Outcome → Status
  | filled _ => .success
  | queryFailed s => s
  | allocationFailed => .outOfResources
  | stillTooSmall => .bufferTooSmall
  | fetchFailed s => s

/-- What the caller of a measured query keeps of it: a buffer with how much of it is filled and how
large it is, and the last status. -/
structure Record where
  buffer : UInt64 := 0
  size : UInt64 := 0
  allocated : UInt64 := 0
  status : Status := .success
deriving DecidableEq, Repr

/-- A buffer that was filled takes the place of what the caller had; a failure leaves all of it but
the status. -/
def Record.update (record : Record) : Outcome → Record
  | .filled result => ⟨result.buffer, result.size, result.allocated, .success⟩
  | outcome => { record with status := outcome.status }

def ask (q : Request) : Program SizedQuery q.Reply := Program.request (I := SizedQuery) q

/-- The second call, with a fresh buffer of `size` bytes. -/
def fetch (size : UInt64) : Program SizedQuery Outcome := do
  let buffer ← ask (.allocate size)
  if buffer = 0 then return .allocationFailed
  let got ← ask (.query size buffer)
  if got.status = .success then return .filled ⟨buffer, got.value, size⟩
  ask (.free buffer)
  return if got.status = .bufferTooSmall then .stillTooSmall else .fetchFailed got.status

/-- The first call, with a buffer of `size` bytes or none, and then the second if that one was too
small. -/
def probe (size buffer : UInt64) : Program SizedQuery Outcome := do
  let got ← ask (.query size buffer)
  if got.status = .success then return .filled ⟨buffer, got.value, size⟩
  if buffer ≠ 0 then ask (.free buffer)
  if got.status = .bufferTooSmall then
    let more ← ask .padding
    fetch (got.value + more)
  else
    return .queryFailed got.status

end SizedQuery

open SizedQuery in
/-- Makes a query whose answer has to be measured, at first with a buffer of `initial` bytes, or
with none if that is zero. -/
def sizedQuery (initial : UInt64) : Program SizedQuery SizedQuery.Outcome := do
  if initial = 0 then
    probe 0 0
  else
    let buffer ← ask (.allocate initial)
    if buffer = 0 then return .allocationFailed
    probe initial buffer

open SizedQuery in
/-- Makes a measured query for a caller who keeps a record of it. -/
def sizedQueryInto (record : Record) (initial : UInt64) :
    Program SizedQuery (Outcome × Record) := do
  let outcome ← sizedQuery initial
  return (outcome, record.update outcome)

/-- Carries a measured query out with the pool of the firmware; the query may keep a value of its
own, which the allowance is computed from. -/
def Services.measured {σ : Type} (efi : Services)
    (query : (size buffer : UInt64) → σ → Action (Answer UInt64 × σ)) (padding : σ → UInt64) :
    (q : SizedQuery.Request) → σ → Action (q.Reply × σ)
  | .allocate size, s => do return (← efi.allocate size, s)
  | .free buffer, s => do return (← efi.free buffer, s)
  | .query size buffer, s => query size buffer s
  | .padding, s => return (padding s, s)

end Bootloader.Uefi
