import Esp32Shell.Shell.Routing
import Esp32Shell.Shell.Session
import Esp32Shell.Library.Run

/-!
# The terminal stream over SSH

`SshTransport::write` tries a write five times as long as wolfSSH is
back-pressured, and gives up on a send that takes only a part. The session does
not look at the result and writes on.
-/
namespace Esp32Shell.Idf.SshTransport

open Esp32Shell.Library.CText Esp32Shell.Library.Run
open Shell.CommandCore Shell.Session

variable {β γ σ : Type}

/-- What `wolfSSH_stream_send` returns: a count, one of the two codes that are tried again, or another. -/
inductive SendResult where
  | accepted (count : Nat)
  | wantWrite
  | windowFull
  | failed
  deriving DecidableEq

/-- What the sends of a session return, from their number and the length they are given. -/
structure Peer where
  reply : Nat → Nat → SendResult
  accepted_le : ∀ call length count, reply call length = .accepted count → 0 < count ∧ count ≤ length

/-- The sends so far and what they have accepted. -/
structure Transport (β : Type) where
  sends : Nat
  accepted : List β
  deriving DecidableEq

def maxAttempts : Nat := 5

/-- The loop of `write`, with the attempts that are left. -/
def attempt (peer : Peer) (data : List β) : Nat → Transport β → Transport β × Bool
  | 0, t => (t, false)
  | left + 1, t =>
    match peer.reply t.sends data.length with
    | .accepted count => (⟨t.sends + 1, t.accepted ++ data.take count⟩, count = data.length)
    | .wantWrite | .windowFull => attempt peer data left { t with sends := t.sends + 1 }
    | .failed => ({ t with sends := t.sends + 1 }, false)

def write (peer : Peer) (t : Transport β) (data : List β) : Transport β × Bool :=
  if data = [] then (t, true) else attempt peer data maxAttempts t

/-- The transport after a sequence of writes. -/
def afterWrites (peer : Peer) (writes : List (List β)) : Transport β :=
  after (fun t data => (write peer t data).1) ⟨0, []⟩ writes

/-- At every moment, before and after each of the sends, what is accepted is a prefix of what has been
tried, the write that is under way included. -/
def InOrder (peer : Peer) (writes : List (List β)) : Prop :=
  ∀ past data, Taken writes past data → ∀ sends ≤ maxAttempts,
    (attempt peer data sends (afterWrites peer past)).1.accepted <+: (past ++ [data]).flatten

theorem afterWrites_step (peer : Peer) (writes : List (List β)) (data : List β) :
    afterWrites peer (writes ++ [data]) = (write peer (afterWrites peer writes) data).1 :=
  after_snoc writes data

/-- What the sends of a write take of it. -/
def taken (peer : Peer) (length : Nat) : Nat → Nat → Nat
  | 0, _ => 0
  | left + 1, call =>
    match peer.reply call length with
    | .accepted count => count
    | .wantWrite | .windowFull => taken peer length left (call + 1)
    | .failed => 0

/-- While something of the earlier writes is missing, no send accepts anything. -/
def Stops (peer : Peer) (writes : List (List β)) : Prop :=
  ∀ past data, Taken writes past data →
    (afterWrites peer past).accepted.length < past.flatten.length →
    taken peer data.length maxAttempts (afterWrites peer past).sends = 0

/-! ### One write -/

theorem attempt_accepted (peer : Peer) (data : List β) (left : Nat) (t : Transport β) :
    (attempt peer data left t).1.accepted =
      t.accepted ++ data.take (taken peer data.length left t.sends) := by
  induction left generalizing t with
  | zero => simp [attempt, taken]
  | succ left ih =>
    rw [attempt, taken]
    cases peer.reply t.sends data.length with
    | accepted count => rfl
    | wantWrite => exact ih { t with sends := t.sends + 1 }
    | windowFull => exact ih { t with sends := t.sends + 1 }
    | failed => simp

theorem write_accepted (peer : Peer) (t : Transport β) (data : List β) :
    (write peer t data).1.accepted =
      t.accepted ++ data.take (taken peer data.length maxAttempts t.sends) := by
  rw [write]
  by_cases hdata : data = []
  · rw [if_pos hdata, hdata, List.take_nil, List.append_nil]
  · rw [if_neg hdata]
    exact attempt_accepted peer data maxAttempts t

theorem taken_le (peer : Peer) (length left call : Nat) : taken peer length left call ≤ length := by
  induction left generalizing call with
  | zero => exact Nat.zero_le length
  | succ left ih =>
    rw [taken]
    cases hreply : peer.reply call length with
    | accepted count => exact (peer.accepted_le call length count hreply).2
    | wantWrite => exact ih (call + 1)
    | windowFull => exact ih (call + 1)
    | failed => exact Nat.zero_le length

/-- Fewer sends have taken nothing yet, or all that is taken. -/
theorem taken_of_le (peer : Peer) (length : Nat) {sends left : Nat} (h : sends ≤ left) (call : Nat) :
    taken peer length sends call = 0 ∨ taken peer length sends call = taken peer length left call := by
  induction sends generalizing left call with
  | zero => exact .inl rfl
  | succ sends ih =>
    obtain ⟨left, rfl⟩ : ∃ more, left = more + 1 := ⟨left - 1, by omega⟩
    rw [taken, taken]
    cases peer.reply call length with
    | accepted count => exact .inr rfl
    | wantWrite => exact ih (by omega) (call + 1)
    | windowFull => exact ih (by omega) (call + 1)
    | failed => exact .inl rfl

theorem afterWrites_snoc (peer : Peer) (writes : List (List β)) (data : List β) :
    (afterWrites peer (writes ++ [data])).accepted = (afterWrites peer writes).accepted ++
      data.take (taken peer data.length maxAttempts (afterWrites peer writes).sends) := by
  rw [afterWrites_step]
  exact write_accepted peer (afterWrites peer writes) data

/-! ### Runs -/

/-- A write behind a complete stream extends it, and one behind a gap that takes nothing leaves it. -/
theorem prefix_extend {accepted tried data : List β} {count : Nat} (h : accepted <+: tried)
    (hgap : accepted.length < tried.length → count = 0) :
    accepted ++ data.take count <+: tried ++ data := by
  by_cases hlt : accepted.length < tried.length
  · rw [hgap hlt, List.take_zero, List.append_nil]
    exact h.trans (List.prefix_append tried data)
  · have heq : accepted = tried := h.eq_of_length (le_antisymm h.length_le (not_lt.mp hlt))
    rw [heq]
    exact (List.prefix_append_right_inj tried).mpr (List.take_prefix count data)

theorem accepted_begins {peer : Peer} {writes : List (List β)} (h : Stops peer writes) :
    (afterWrites peer writes).accepted <+: writes.flatten := by
  induction writes using List.reverseRecOn with
  | nil => exact List.nil_prefix
  | append_singleton writes data ih =>
    have hpast := ih fun past d htaken => h past d (htaken.snoc data)
    rw [afterWrites_snoc, List.flatten_concat]
    exact prefix_extend hpast (h writes data (taken_last writes data))

theorem inOrder_of_stops {peer : Peer} {writes : List (List β)} (h : Stops peer writes) :
    InOrder peer writes := by
  intro past data htaken sends hsends
  have hpast : Stops peer past := fun before d hd =>
    h before d (hd.trans ((List.prefix_append _ _).trans htaken))
  rw [attempt_accepted, List.flatten_concat]
  refine prefix_extend (accepted_begins hpast) fun hgap => ?_
  rcases taken_of_le peer data.length hsends (afterWrites peer past).sends with hzero | hsame
  · exact hzero
  · exact hsame.trans (h past data htaken hgap)

/-- Where all that is tried can be told apart, an ordered run takes nothing behind a gap. -/
theorem stops_of_inOrder {peer : Peer} {writes : List (List β)} (hnodup : writes.flatten.Nodup)
    (h : InOrder peer writes) : Stops peer writes := by
  intro past data htaken hgap
  have hle := taken_le peer data.length maxAttempts (afterWrites peer past).sends
  have hprefix := h past data htaken maxAttempts le_rfl
  rw [attempt_accepted, List.flatten_concat] at hprefix
  generalize taken peer data.length maxAttempts (afterWrites peer past).sends = count at hle hprefix ⊢
  by_contra hne
  have hdistinct : (past.flatten ++ data).Nodup := by
    obtain ⟨rest, rfl⟩ := htaken
    rw [List.flatten_append, List.flatten_concat] at hnodup
    exact (List.nodup_append.mp hnodup).1
  cases data with
  | nil => exact hne (Nat.le_zero.mp hle)
  | cons b data =>
    -- the first byte taken stands in the accepted stream where an earlier one belongs
    obtain ⟨n, rfl⟩ : ∃ n, count = n + 1 := ⟨count - 1, by omega⟩
    have hsame := hprefix.getElem (i := (afterWrites peer past).accepted.length) (by simp)
    rw [List.getElem_append_right le_rfl, List.getElem_append_left hgap] at hsame
    simp only [Nat.sub_self, List.take_succ_cons, List.getElem_cons_zero] at hsame
    have hmem : b ∈ past.flatten := hsame ▸ List.getElem_mem hgap
    exact (List.nodup_append.mp hdistinct).2.2 b hmem b List.mem_cons_self rfl

/-! ### Bytes and their places -/

/-- The bytes of every write with their places in the whole stream. -/
def placed (start : Nat) : List (List β) → List (List (β × Nat))
  | [] => []
  | data :: writes => data.zipIdx start :: placed (start + data.length) writes

theorem placed_map (start : Nat) (writes : List (List β)) :
    (placed start writes).map (List.map Prod.fst) = writes := by
  induction writes generalizing start with
  | nil => rfl
  | cons data writes ih =>
    rw [placed, List.map_cons, ih, List.zipIdx_map_fst]

theorem placed_flatten (start : Nat) (writes : List (List β)) :
    (placed start writes).flatten = writes.flatten.zipIdx start := by
  induction writes generalizing start with
  | nil => rfl
  | cons data writes ih => rw [placed, List.flatten_cons, List.flatten_cons, ih, List.zipIdx_append]

theorem placed_nodup (start : Nat) (writes : List (List β)) : (placed start writes).flatten.Nodup := by
  rw [placed_flatten]
  refine List.Nodup.of_map Prod.snd ?_
  rw [List.zipIdx_map_snd]
  exact List.nodup_range'

theorem attempt_map (peer : Peer) (f : β → γ) (data : List β) (left : Nat) (t : Transport β) :
    (attempt peer (data.map f) left ⟨t.sends, t.accepted.map f⟩).1 =
      ⟨(attempt peer data left t).1.sends, (attempt peer data left t).1.accepted.map f⟩ := by
  induction left generalizing t with
  | zero => rfl
  | succ left ih =>
    rw [attempt, attempt, List.length_map]
    cases peer.reply t.sends data.length with
    | accepted count => simp
    | wantWrite => exact ih { t with sends := t.sends + 1 }
    | windowFull => exact ih { t with sends := t.sends + 1 }
    | failed => rfl

theorem write_map (peer : Peer) (f : β → γ) (data : List β) (t : Transport β) :
    (write peer ⟨t.sends, t.accepted.map f⟩ (data.map f)).1 =
      ⟨(write peer t data).1.sends, (write peer t data).1.accepted.map f⟩ := by
  rw [write, write]
  by_cases hdata : data = []
  · rw [if_pos hdata, if_pos (List.map_eq_nil_iff.mpr hdata)]
  · rw [if_neg hdata, if_neg fun h => hdata (List.map_eq_nil_iff.mp h)]
    exact attempt_map peer f data maxAttempts t

/-- The transport does not look at the bytes. -/
theorem afterWrites_map (peer : Peer) (f : β → γ) (writes : List (List β)) :
    afterWrites peer (writes.map (List.map f)) =
      ⟨(afterWrites peer writes).sends, (afterWrites peer writes).accepted.map f⟩ := by
  induction writes using List.reverseRecOn with
  | nil => rfl
  | append_singleton writes data ih =>
    rw [List.map_append, List.map_singleton, afterWrites_step, ih, write_map, afterWrites_step]

theorem stops_map (peer : Peer) (f : β → γ) (writes : List (List β)) :
    Stops peer (writes.map (List.map f)) ↔ Stops peer writes := by
  have hstep : ∀ (past : List (List β)) (data : List β),
      ((afterWrites peer (past.map (List.map f))).accepted.length <
          (past.map (List.map f)).flatten.length →
        taken peer (data.map f).length maxAttempts (afterWrites peer (past.map (List.map f))).sends = 0) ↔
      ((afterWrites peer past).accepted.length < past.flatten.length →
        taken peer data.length maxAttempts (afterWrites peer past).sends = 0) := by
    intro past data
    rw [afterWrites_map, ← List.map_flatten, List.length_map, List.length_map, List.length_map]
  constructor
  · intro h past data htaken
    refine (hstep past data).mp (h _ _ ?_)
    have hmap := List.IsPrefix.map (List.map f) htaken
    rwa [List.map_append, List.map_singleton] at hmap
  · intro h past' data' htaken
    obtain ⟨cut, hcut, heq⟩ := List.prefix_map_iff.mp htaken
    obtain ⟨past, last, rfl, rfl, hlast⟩ := List.map_eq_append_iff.mp heq.symm
    obtain ⟨data, rfl, rfl⟩ := List.map_eq_singleton_iff.mp hlast
    exact (hstep past data).mpr (h past data hcut)

/-! ### The session -/

/-- What a session tries to write, in its order. -/
def written (events : List Event) : List (List UInt8) :=
  events.filterMap fun
    | .wrote bytes => some bytes
    | _ => none

/-- The places accepted of a session's stream are in order exactly when no send accepts anything while
something is missing; the accepted bytes then are a prefix of those that have been tried. -/
theorem terminal_stream (services : DeviceServices σ) (allocated : Bool) (device : σ) (polls : List Poll)
    (peer : Peer) :
    let writes := written (eventsOf (run services allocated device polls))
    (InOrder peer (placed 0 writes) ↔ Stops peer writes) ∧
      (Stops peer writes → InOrder peer writes) := by
  intro writes
  have hplaced : Stops peer (placed 0 writes) ↔ Stops peer writes := by
    rw [← stops_map peer Prod.fst, placed_map]
  refine ⟨⟨fun h => ?_, fun h => ?_⟩, inOrder_of_stops⟩
  · exact hplaced.mp (stops_of_inOrder (placed_nodup 0 writes) h)
  · exact inOrder_of_stops (hplaced.mpr h)

def slowReply (call length : Nat) : SendResult :=
  if length = 0 then .wantWrite else if call = 0 then .accepted (min 5 length) else .accepted length

/-- A client whose window is short once, and then takes everything. -/
def slowPeer : Peer where
  reply := slowReply
  accepted_le := by
    intro call length count h
    unfold slowReply at h
    split_ifs at h with hlength hcall
    · obtain rfl := SendResult.accepted.inj h
      omega
    · obtain rfl := SendResult.accepted.inj h
      omega

/-- Of the greeting it receives `esp32`, and then the rest of the stream from the line ending on. -/
theorem slow_client_gap : ¬ InOrder slowPeer (written (eventsOf (run Shell.Routing.silent true () []))) := by
  intro horder
  have htaken : Taken (written (eventsOf (run Shell.Routing.silent true () [])))
      [lit "esp32shell ssh shell"] [carriageReturn, lineFeed] := by
    unfold Taken
    decide
  have hprefix := horder _ _ htaken maxAttempts le_rfl
  exact absurd hprefix (by decide)

end Esp32Shell.Idf.SshTransport
