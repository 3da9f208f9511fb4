import RobotsixMill.Core.Models
import RobotsixMill.Lib.Blake2b
import RobotsixMill.Lib.HashChain

/-!
# `Core.EventHash` — the hash chain of a ticket's history

`eventHash` is BLAKE2b-256 over the canonical JSON of an event; `makeEvent` links a new event to the
digest of the last one. `ChainOk tid events` is the integrity the chain is meant to have, an instance
of `HashChain.Chained`: a new event extends it (`makeEvent_chainOk`).
-/

namespace RobotsixMill
namespace Core
open Lib

/-! ## `datetime.isoformat` -/

/-- Decimal digits, zero-padded to `w` places. -/
def pad (w n : Nat) : List Char :=
  let ds := (toString n).toList
  List.replicate (w - ds.length) '0' ++ ds

/-- Year, month and day of a day number counted from 1970-01-01. -/
def civil (days : Nat) : Nat × Nat × Nat :=
  let z := days + 719468
  let era := z / 146097
  let doe := z % 146097
  let yoe := (doe - doe / 1460 + doe / 36524 - doe / 146096) / 365
  let doy := doe - (365 * yoe + yoe / 4 - yoe / 100)
  let mp := (5 * doy + 2) / 153
  let d := doy - (153 * mp + 2) / 5 + 1
  let m := if mp < 10 then mp + 3 else mp - 9
  (yoe + era * 400 + (if m ≤ 2 then 1 else 0), m, d)

/-- `at.isoformat()` of an aware UTC time; the microseconds are printed unless they are zero. -/
def isoformat (t : DateTime) : List Char :=
  let micros := t % 1000000
  let secs := t / 1000000
  let (y, m, d) := civil (secs / 86400)
  let s := secs % 86400
  pad 4 y ++ ['-'] ++ pad 2 m ++ ['-'] ++ pad 2 d ++ ['T'] ++ pad 2 (s / 3600) ++ [':'] ++
    pad 2 (s / 60 % 60) ++ [':'] ++ pad 2 (s % 60) ++
    (if micros = 0 then [] else '.' :: pad 6 micros) ++ "+00:00".toList

/-! ## Canonical JSON -/

/-- One UTF-16 code unit as `\uXXXX`. -/
def escapeUnit (n : Nat) : List Char :=
  '\\' :: 'u' :: [n / 4096, n / 256 % 16, n / 16 % 16, n % 16].map Blake2b.hexDigit

/-- A character of a JSON string as `json.dumps` writes it (`ensure_ascii`). -/
def escapeChar (c : Char) : List Char :=
  if c = '"' then ['\\', '"']
  else if c = '\\' then ['\\', '\\']
  else if c = '\n' then ['\\', 'n']
  else if c = '\r' then ['\\', 'r']
  else if c = '\t' then ['\\', 't']
  else if c.toNat = 8 then ['\\', 'b']
  else if c.toNat = 12 then ['\\', 'f']
  else if 32 ≤ c.toNat ∧ c.toNat ≤ 126 then [c]
  else if c.toNat < 65536 then escapeUnit c.toNat
  else
    let n := c.toNat - 65536
    escapeUnit (55296 + n / 1024) ++ escapeUnit (56320 + n % 1024)

def jsonString (cs : List Char) : List Char := '"' :: cs.flatMap escapeChar ++ ['"']

def jsonOptString : Option String → List Char
  | none => "null".toList
  | some s => jsonString s.toList

/-- `_event_hash`: the keys of the payload are sorted and the separators carry no blank. -/
def eventHash (ticketId : TicketId) (state : State) (note : Option String) (at_ : DateTime)
    (prevHash : Option String) : String :=
  let canonical :=
    "\x7b\"at\":".toList ++ jsonString (isoformat at_) ++
    ",\"note\":".toList ++ jsonOptString note ++
    ",\"prev_hash\":".toList ++ jsonOptString prevHash ++
    ",\"state\":".toList ++ jsonString state.value.toList ++
    ",\"ticket_id\":".toList ++ jsonString ticketId.toList ++ "\x7d".toList
  Blake2b.hexdigest 32 (canonical.map Char.toNat)

theorem eventHash_ne_empty (tid : TicketId) (s : State) (note : Option String) (t : DateTime)
    (p : Option String) : eventHash tid s note t p ≠ "" :=
  Blake2b.hexdigest_ne_empty 32 _ (by omega) (by omega)

/-! ## Extending the chain -/

/-- `_prev_hash_for`: the hash of the newest event; an empty hash (a pre-chain row) counts as none. -/
def prevHashFor (events : List TicketEvent) : Option String :=
  match events.getLast? with
  | none => none
  | some prev => if prev.hash = "" then none else some prev.hash

/-- `_make_event`. -/
def makeEvent (ticketId : TicketId) (events : List TicketEvent) (state : State)
    (note : Option String) (now : DateTime) : TicketEvent :=
  let prevHash := prevHashFor events
  { state, note, at_ := now, prevHash, hash := eventHash ticketId state note now prevHash }

/-- The event's own digest is the one its stored fields yield. -/
def EventSound (tid : TicketId) (e : TicketEvent) : Prop :=
  e.hash = eventHash tid e.state e.note e.at_ e.prevHash

/-- Integrity of a history: the first event has no predecessor, every later one names the hash of the
    event before it, and every hash is the one of the stored fields. -/
def ChainOk (tid : TicketId) (events : List TicketEvent) : Prop :=
  HashChain.Chained TicketEvent.prevHash TicketEvent.hash (EventSound tid) none events

theorem makeEvent_sound (tid : TicketId) (es : List TicketEvent) (s : State) (note : Option String)
    (now : DateTime) : EventSound tid (makeEvent tid es s note now) := rfl

/-- In a sound history no hash is empty, so the link is the digest of the last event. -/
theorem prevHashFor_eq_tip {tid : TicketId} {es : List TicketEvent} (h : ChainOk tid es) :
    prevHashFor es = HashChain.tip TicketEvent.hash none es := by
  unfold prevHashFor HashChain.tip
  cases hl : es.getLast? with
  | none => rfl
  | some e =>
      have hs : EventSound tid e := h.sound_of_mem e (List.mem_of_getLast? hl)
      have hne : e.hash ≠ "" := by rw [hs]; exact eventHash_ne_empty _ _ _ _ _
      simp [hne]

/-- **A new event extends the chain.** -/
theorem makeEvent_chainOk {tid : TicketId} {es : List TicketEvent} (h : ChainOk tid es) (s : State)
    (note : Option String) (now : DateTime) : ChainOk tid (es ++ [makeEvent tid es s note now]) :=
  h.snoc (prevHashFor_eq_tip h) (makeEvent_sound _ _ _ _ _)

theorem chainOk_nil (tid : TicketId) : ChainOk tid [] := trivial

example : String.ofList (isoformat 1786444496789012) = "2026-08-11T10:34:56.789012+00:00" := by
  decide +kernel

end Core
end RobotsixMill
