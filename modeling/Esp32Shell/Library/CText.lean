import Mathlib.Data.List.Basic
import Mathlib.Data.List.DropRight
import Mathlib.Data.List.Infix

/-!
# NUL-terminated text

Memory holding a C string is a byte list; the string is its part before the
first NUL. The functions below are the string functions of the C library on
that part. Positions and lengths are unbounded naturals: nothing here truncates.
-/
namespace Esp32Shell.Library.CText

/-- The bytes of a C string, without its terminator. -/
abbrev Text := List UInt8

/-- The bytes of a string literal. -/
def lit (s : String) : Text := s.toByteArray.data.toList

/-- What a string function sees of a block of memory. -/
def cString (memory : List UInt8) : Text := memory.takeWhile (· ≠ 0)

theorem zero_notMem_cString (memory : List UInt8) : 0 ∉ cString memory := by
  intro h
  simpa using List.mem_takeWhile_imp h

theorem cString_eq_self_iff (t : List UInt8) : cString t = t ↔ 0 ∉ t := by
  constructor
  · intro h
    rw [← h]
    exact zero_notMem_cString t
  · intro h
    refine List.takeWhile_eq_self_iff.mpr fun b hb => ?_
    simpa using fun he : b = 0 => h (he ▸ hb)

/-- Nothing behind a terminator is seen. -/
theorem cString_terminated (body rest : List UInt8) : cString (body ++ 0 :: rest) = cString body := by
  unfold cString
  induction body with
  | nil => simp
  | cons b body ih => by_cases hb : b = 0 <;> simp_all

theorem cString_append_of_mem {t : List UInt8} (h : 0 ∈ t) (rest : List UInt8) :
    cString (t ++ rest) = cString t := by
  obtain ⟨pre, post, rfl, -⟩ := List.eq_append_cons_of_mem h
  rw [List.append_assoc, List.cons_append, cString_terminated, cString_terminated]

theorem cString_append_of_notMem {t : List UInt8} (h : 0 ∉ t) (rest : List UInt8) :
    cString (t ++ rest) = t ++ cString rest :=
  List.takeWhile_append_of_pos fun b hb => by simpa using fun he : b = 0 => h (he ▸ hb)

/-- A text with its terminator is read back, whatever the memory behind it holds. -/
theorem cString_append_zero {t : Text} (h : 0 ∉ t) (rest : List UInt8) : cString (t ++ 0 :: rest) = t := by
  rw [cString_terminated, (cString_eq_self_iff t).mpr h]

/-- A terminator written behind a text ends it there. -/
theorem cString_set_end {t : Text} (h : 0 ∉ t) (rest : List UInt8) :
    cString ((t ++ rest).set t.length 0) = t := by
  rw [List.set_append_right _ _ le_rfl, Nat.sub_self]
  cases rest with
  | nil => rw [List.set_nil, List.append_nil, (cString_eq_self_iff t).mpr h]
  | cons b rest => rw [List.set_cons_zero, cString_append_zero h]

theorem cString_cons {b : UInt8} (h : b ≠ 0) (memory : List UInt8) :
    cString (b :: memory) = b :: cString memory := List.takeWhile_cons_of_pos (by simpa using h)

theorem cString_take (memory : List UInt8) (n : Nat) : cString (memory.take n) = (cString memory).take n := by
  induction memory generalizing n with
  | nil => simp [cString]
  | cons b memory ih =>
    cases n with
    | zero => rfl
    | succ n =>
      by_cases hb : b = 0
      · simp [cString, hb]
      · rw [List.take_succ_cons, cString_cons hb, cString_cons hb, List.take_succ_cons, ih]

@[simp] theorem cString_cString (memory : List UInt8) : cString (cString memory) = cString memory :=
  (cString_eq_self_iff _).mpr (zero_notMem_cString memory)

/-- Reading one character; the terminator stands at the length. -/
def byteAt (t : Text) (i : Nat) : UInt8 := t.getD i 0

/-- A text ends at `i` exactly when the character there is the terminator. -/
theorem byteAt_eq_zero_iff {t : Text} (h : 0 ∉ t) (i : Nat) : byteAt t i = 0 ↔ t.drop i = [] := by
  rw [List.drop_eq_nil_iff]
  constructor
  · intro hz
    by_contra hlt
    push Not at hlt
    have hmem : t[i] ∈ t := List.getElem_mem hlt
    have hb : byteAt t i = t[i] := by simp [byteAt, List.getElem?_eq_getElem hlt]
    exact h (hz ▸ hb ▸ hmem)
  · intro hle
    simp [byteAt, List.getElem?_eq_none hle]

/-- `memcpy` of the first `n` bytes. -/
def memcpy (dst src : List UInt8) (n : Nat) : List UInt8 := src.take n ++ dst.drop n

/-- `strncpy` fills up with terminators. -/
def strncpy (dst : List UInt8) (src : Text) (n : Nat) : List UInt8 :=
  src.take n ++ List.replicate (n - src.length) 0 ++ dst.drop n

/-- A copy that leaves room for a terminator behind the text. -/
theorem cString_strncpy_zeros {src : Text} (h : 0 ∉ src) (n m : Nat) :
    cString (strncpy (List.replicate m 0) src n) = src.take n := by
  have htake : 0 ∉ src.take n := fun hmem => h (List.mem_of_mem_take hmem)
  rw [strncpy, List.append_assoc, List.drop_replicate, List.replicate_append_replicate]
  cases n - src.length + (m - n) with
  | zero => rw [List.replicate_zero, List.append_nil, (cString_eq_self_iff _).mpr htake]
  | succ k => rw [List.replicate_succ, cString_append_zero htake]

/-- `strncmp(a, b, n) == 0`. -/
def strncmpEq (a b : Text) (n : Nat) : Bool := a.take n == b.take n

/-- The number of characters of `a` that `strncmp` looks at: it stops behind the first that differs from
the one in `b`, or ends both. -/
def strncmpReads (a b : List UInt8) : Nat → Nat
  | 0 => 0
  | n + 1 =>
    if byteAt a 0 = byteAt b 0 ∧ byteAt a 0 ≠ 0 then strncmpReads a.tail b.tail n + 1 else 1

theorem lt_strncmpReads {t b : Text} (hb : 0 ∉ b) (hbegins : t <+: b) {n : Nat} (hn : t.length < n)
    (rest : List UInt8) : t.length < strncmpReads (t ++ rest) b n := by
  induction t generalizing b n with
  | nil =>
    obtain ⟨n, rfl⟩ := Nat.exists_eq_succ_of_ne_zero (Nat.ne_of_gt hn)
    rw [strncmpReads]
    split <;> simp
  | cons c t ih =>
    obtain ⟨n, rfl⟩ := Nat.exists_eq_succ_of_ne_zero (Nat.ne_of_gt (Nat.zero_lt_of_lt hn))
    obtain ⟨b, rfl⟩ : ∃ b', b = c :: b' := by
      obtain ⟨more, hmore⟩ := hbegins
      exact ⟨t ++ more, hmore.symm⟩
    have hc : c ≠ 0 := fun he => hb (he ▸ List.mem_cons_self)
    have hlater := ih (fun h => hb (List.mem_cons_of_mem c h)) ((List.prefix_cons_inj c).mp hbegins)
      (Nat.lt_of_succ_lt_succ hn)
    have hread : strncmpReads (c :: t ++ rest) (c :: b) (n + 1) = strncmpReads (t ++ rest) b n + 1 :=
      if_pos ⟨rfl, hc⟩
    rw [hread]
    exact Nat.succ_lt_succ hlater

/-- A character of the text that differs, or ends it, is the last that is looked at. -/
theorem strncmpReads_le {t b : Text} (hnot : ¬ t <+: b) (n : Nat) (rest : List UInt8) :
    strncmpReads (t ++ rest) b n ≤ t.length := by
  induction t generalizing b n with
  | nil => exact absurd List.nil_prefix hnot
  | cons c t ih =>
    cases n with
    | zero => exact Nat.zero_le _
    | succ n =>
      rw [strncmpReads]
      split
      · next hsame =>
        cases b with
        | nil => exact absurd hsame.1 hsame.2
        | cons d b =>
          obtain rfl : c = d := hsame.1
          exact Nat.succ_le_succ (ih (fun h => hnot ((List.prefix_cons_inj c).mpr h)) n)
      · exact Nat.succ_le_succ (Nat.zero_le _)

/-- `strchr`, as the position of the first occurrence. -/
def strchr (t : Text) (c : UInt8) : Option Nat := t.idxOf? c

theorem strchr_append {pre : Text} {c : UInt8} (h : c ∉ pre) (post : Text) :
    strchr (pre ++ c :: post) c = some pre.length := by
  rw [strchr, List.idxOf?_eq_some_iff]
  refine ⟨by simp, by simp, fun j hj => ?_⟩
  rw [List.getElem_append_left hj]
  exact fun he => h (he ▸ List.getElem_mem hj)

theorem strchr_eq_none_iff (t : Text) (c : UInt8) : strchr t c = none ↔ c ∉ t := by
  simp [strchr]

/-- A found character cuts the text in two around its first occurrence. -/
theorem strchr_eq_some_iff (t : Text) (c : UInt8) (i : Nat) :
    strchr t c = some i ↔ ∃ pre post, t = pre ++ c :: post ∧ c ∉ pre ∧ i = pre.length := by
  constructor
  · intro h
    obtain ⟨hlt, hc, hfirst⟩ := List.idxOf?_eq_some_iff.mp h
    refine ⟨t.take i, t.drop (i + 1), ?_, ?_, by simp; omega⟩
    · rw [← hc, List.getElem_cons_drop, List.take_append_drop]
    · intro hm
      obtain ⟨j, hj, he⟩ := List.mem_iff_getElem.mp hm
      rw [List.getElem_take] at he
      exact hfirst j (by simp at hj; omega) he
  · rintro ⟨pre, post, rfl, hc, rfl⟩
    exact strchr_append hc post

/-! Around the first occurrence of a character, a text is cut in the part in front and the rest. -/

theorem takeWhile_cut {pre : Text} {c : UInt8} (h : c ∉ pre) (post : Text) :
    (pre ++ c :: post).takeWhile (· ≠ c) = pre := by
  have hpre : ∀ b ∈ pre, decide (b ≠ c) = true := fun b hb => by
    simpa using fun he : b = c => h (he ▸ hb)
  rw [List.takeWhile_append_of_pos hpre, List.takeWhile_cons_of_neg (by simp), List.append_nil]

theorem dropWhile_cut {pre : Text} {c : UInt8} (h : c ∉ pre) (post : Text) :
    (pre ++ c :: post).dropWhile (· ≠ c) = c :: post := by
  have hpre : ∀ b ∈ pre, decide (b ≠ c) = true := fun b hb => by
    simpa using fun he : b = c => h (he ▸ hb)
  rw [List.dropWhile_append_of_pos hpre, List.dropWhile_cons_of_neg (by simp)]

theorem dropWhile_of_notMem {t : Text} {c : UInt8} (h : c ∉ t) : t.dropWhile (· ≠ c) = [] :=
  List.dropWhile_eq_nil_iff.mpr fun b hb => by simpa using fun he : b = c => h (he ▸ hb)

theorem exists_cut {t : Text} {c : UInt8} (h : c ∈ t) :
    ∃ pre post, t = pre ++ c :: post ∧ c ∉ pre := by
  obtain ⟨pre, post, ht, hpre⟩ := List.eq_append_cons_of_mem h
  exact ⟨pre, post, ht, hpre⟩

/-- Induction on the part behind the first occurrence of a character. -/
@[elab_as_elim] theorem cut_induction {motive : Text → Prop} (c : UInt8)
    (whole : ∀ t, c ∉ t → motive t)
    (cut : ∀ pre post, c ∉ pre → motive post → motive (pre ++ c :: post)) (t : Text) :
    motive t := by
  induction hl : t.length using Nat.strong_induction_on generalizing t with
  | _ n ih =>
    by_cases hc : c ∈ t
    · obtain ⟨pre, post, rfl, hpre⟩ := exists_cut hc
      rw [List.length_append, List.length_cons] at hl
      exact cut pre post hpre (ih post.length (by omega) post rfl)
    · exact whole t hc

/-! The segments of a text between the occurrences of a character. -/

theorem splitOn_cut {pre : Text} {c : UInt8} (h : c ∉ pre) (post : Text) :
    (pre ++ c :: post).splitOn c = pre :: post.splitOn c := by
  rw [List.splitOn_append_cons_self, List.splitOn_eq_singleton h, List.singleton_append]

theorem infix_of_mem_splitOn {c : UInt8} {t segment : Text} (h : segment ∈ t.splitOn c) :
    segment <:+: t := by
  induction t using cut_induction c with
  | whole t hc =>
    rw [List.splitOn_eq_singleton hc, List.mem_singleton] at h
    rw [h]
  | cut pre post hpre ih =>
    rw [splitOn_cut hpre] at h
    apply (List.mem_cons.mp h).elim
    · intro he
      rw [he]
      exact (List.prefix_append _ _).isInfix
    · intro hm
      have hpost : post <:+: pre ++ c :: post :=
        ((List.suffix_cons c post).trans (List.suffix_append pre _)).isInfix
      exact (ih hm).trans hpost

/-- Every other character is in one of the segments. -/
theorem exists_segment {b c : UInt8} {t : Text} (hb : b ∈ t) (hne : b ≠ c) :
    ∃ segment ∈ t.splitOn c, b ∈ segment := by
  induction t using cut_induction c with
  | whole t hc => exact ⟨t, by rw [List.splitOn_eq_singleton hc]; exact List.mem_singleton_self t, hb⟩
  | cut pre post hpre ih =>
    rw [splitOn_cut hpre]
    apply (List.mem_append.mp hb).elim
    · intro hm
      exact ⟨pre, List.mem_cons_self, hm⟩
    · intro hm
      obtain ⟨segment, hs, hin⟩ := ih ((List.mem_cons.mp hm).resolve_left hne)
      exact ⟨segment, List.mem_cons_of_mem _ hs, hin⟩

/-- A text at the end belongs to the last segment. -/
theorem splitOn_append {c : UInt8} {s : Text} (hs : c ∉ s) (t : Text) : ∃ segments last,
    t.splitOn c = segments ++ [last] ∧ (t ++ s).splitOn c = segments ++ [last ++ s] := by
  induction t using cut_induction c with
  | whole t hc =>
    have happend : c ∉ t ++ s := fun h => (List.mem_append.mp h).elim hc hs
    exact ⟨[], t, List.splitOn_eq_singleton hc, List.splitOn_eq_singleton happend⟩
  | cut pre post hpre ih =>
    obtain ⟨segments, last, hpost, happend⟩ := ih
    refine ⟨pre :: segments, last, ?_, ?_⟩
    · rw [splitOn_cut hpre, hpost]
      rfl
    · rw [List.append_assoc, List.cons_append, splitOn_cut hpre, happend]
      rfl

theorem drop_cut (pre : Text) (c : UInt8) (post : Text) :
    (pre ++ c :: post).drop (pre.length + 1) = post := by
  rw [← List.singleton_append, ← List.append_assoc, List.drop_left' (by simp)]

theorem byteAt_cut {pre : Text} {c : UInt8} {post : Text} (h : 0 ∉ pre ++ c :: post) :
    byteAt (pre ++ c :: post) (pre.length + 1) = 0 ↔ post = [] := by
  rw [byteAt_eq_zero_iff h, drop_cut]

/-- `strstr`, as the position of the first occurrence. -/
def strstr (needle : Text) : Text → Option Nat
  | [] => if needle = [] then some 0 else none
  | c :: t => if needle.isPrefixOf (c :: t) then some 0 else (strstr needle t).map (· + 1)

/-- A found text cuts the text at the position that is reported. -/
theorem exists_cut_of_strstr {needle t : Text} {i : Nat} (h : strstr needle t = some i) :
    ∃ pre post, t = pre ++ needle ++ post ∧ pre.length = i := by
  induction t generalizing i with
  | nil =>
    rw [strstr] at h
    split at h
    · next hempty =>
      cases h
      exact ⟨[], [], by rw [hempty]; rfl, rfl⟩
    · cases h
  | cons c t ih =>
    rw [strstr] at h
    split at h
    · next hfound =>
      cases h
      obtain ⟨post, hpost⟩ := List.isPrefixOf_iff_prefix.mp hfound
      exact ⟨[], post, hpost.symm, rfl⟩
    · obtain ⟨j, hj, rfl⟩ := Option.map_eq_some_iff.mp h
      obtain ⟨pre, post, rfl, rfl⟩ := ih hj
      exact ⟨c :: pre, post, rfl, rfl⟩

theorem strstr_eq_none_iff {needle t : Text} : strstr needle t = none ↔ ¬ needle <:+: t := by
  induction t with
  | nil =>
    rw [strstr, List.infix_nil]
    by_cases hempty : needle = [] <;> simp [hempty]
  | cons c t ih =>
    rw [strstr, List.infix_cons_iff, ← List.isPrefixOf_iff_prefix]
    by_cases hfound : needle.isPrefixOf (c :: t) = true
    · simp [hfound]
    · simp [hfound, ih]

theorem strstr_append {pre : Text} {c : UInt8} (h : c ∉ pre) (needle post : Text) :
    strstr (c :: needle) (pre ++ c :: needle ++ post) = some pre.length := by
  induction pre with
  | nil =>
    have hfound : (c :: needle).isPrefixOf (c :: needle ++ post) = true :=
      List.isPrefixOf_iff_prefix.mpr (List.prefix_append _ _)
    exact if_pos hfound
  | cons b pre ih =>
    have hb : c ≠ b := fun he => h (he ▸ List.mem_cons_self)
    have hpre : c ∉ pre := fun hm => h (List.mem_cons_of_mem b hm)
    have hnot : ¬ (c :: needle).isPrefixOf (b :: (pre ++ c :: needle ++ post)) = true := by
      simp [hb]
    rw [List.cons_append, List.cons_append, strstr, if_neg hnot, ih hpre]
    rfl

/-- `snprintf` into a buffer of `size` bytes keeps what fits before the terminator. -/
def snprintf (size : Nat) (t : Text) : Text := t.take (size - 1)

/-- `%u`. -/
def decimal (n : Nat) : Text := lit (toString n)

end Esp32Shell.Library.CText
