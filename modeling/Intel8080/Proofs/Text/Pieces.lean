import Intel8080.Text.Utf8

/-!
# Text that comes in pieces

Bytes read in pieces, each by itself, give the text of all of them exactly if no piece goes on with
a character that the bytes before it begin (`shown_spec`). Where a piece does, the
beginning and every further byte of the character become replacement characters of their own, so
the pieces show more characters than there are; later pieces can never make up for that.
-/
namespace Intel8080.Utf8

namespace Decoder

/-- A decoder with text read before. -/
def behind (d : Decoder) (text : String) : Decoder := ⟨text ++ d.text, d.beginning⟩

theorem append_push (s t : String) (c : Char) : (s ++ t).push c = s ++ t.push c := by
  rw [String.push_eq_append, String.push_eq_append, String.append_assoc]

theorem behind_behind (d : Decoder) (s t : String) : (d.behind t).behind s = d.behind (s ++ t) := by
  simp only [behind, String.append_assoc]

/-- Where a character can begin, the text before is only carried along. -/
theorem first_eq_behind (text : String) (b : UInt8) : first text b = (first "" b).behind text := by
  have pushed (c : Char) : text.push c = text ++ "".push c := by
    rw [← append_push, String.append_empty]
  have kept : text = text ++ "" := String.append_empty.symm
  unfold first behind
  repeat' split
  all_goals first | rw [← pushed] | rw [← kept]

theorem feed_behind (d : Decoder) (text : String) (b : UInt8) :
    (d.behind text).feed b = (d.feed b).behind text := by
  obtain ⟨own, beginning⟩ := d
  cases beginning with
  | none =>
    change first (text ++ own) b = (first own b).behind text
    rw [first_eq_behind, first_eq_behind own, behind_behind]
  | some g =>
    simp only [feed, behind]
    split
    · split
      · rw [append_push]
      · rfl
    · rw [append_push, first_eq_behind, first_eq_behind (own.push replacement), ← behind_behind]
      rfl

/-- What was read before makes no difference to what is read. -/
theorem foldl_feed_behind (bytes : List UInt8) (d : Decoder) (text : String) :
    bytes.foldl feed (d.behind text) = (bytes.foldl feed d).behind text := by
  induction bytes generalizing d with
  | nil => rfl
  | cons b rest ih => rw [List.foldl_cons, feed_behind, ih]; rfl

theorem finish_behind (d : Decoder) (text : String) : (d.behind text).finish = text ++ d.finish := by
  unfold finish behind
  split
  · rw [append_push]
  · rfl

/-- Whether a byte goes on with the character begun. -/
def goesOn (d : Decoder) (b : UInt8) : Bool :=
  d.beginning.any fun g => g.low ≤ b && b ≤ g.high

/-- A byte that does not go on with a character begins anew behind the finished text. -/
theorem feed_anew (d : Decoder) (b : UInt8) (anew : d.goesOn b = false) :
    d.feed b = (start.feed b).behind d.finish := by
  obtain ⟨text, beginning⟩ := d
  cases beginning with
  | none => exact first_eq_behind text b
  | some g =>
    have out : (decide (g.low ≤ b) && decide (b ≤ g.high)) = false := anew
    simp only [feed, out]
    exact first_eq_behind (text.push replacement) b

/-- The byte that is expected next, if any, is a continuation byte. -/
def IsProper (d : Decoder) : Prop :=
  d.beginning.all (fun g => 0x80 ≤ g.low && g.high ≤ 0xBF) = true

theorem isProper_first (text : String) (b : UInt8) : (first text b).IsProper := by
  unfold first
  repeat' split
  all_goals rfl

theorem isProper_feed (d : Decoder) (b : UInt8) : (d.feed b).IsProper := by
  obtain ⟨text, beginning⟩ := d
  cases beginning with
  | none => exact isProper_first text b
  | some g =>
    simp only [feed]
    split
    · split <;> rfl
    · exact isProper_first _ b

theorem isProper_foldl (bytes : List UInt8) (d : Decoder) (proper : d.IsProper) :
    (bytes.foldl feed d).IsProper := by
  induction bytes generalizing d with
  | nil => exact proper
  | cons b rest ih => exact ih (d.feed b) (isProper_feed d b)

/-- A continuation byte where a character can begin is replaced. -/
theorem first_continuation (text : String) (b : UInt8) (low : 0x80 ≤ b) (high : b ≤ 0xBF) :
    first text b = ⟨text.push replacement, none⟩ := by
  have notAscii : ¬ b < 0x80 := UInt8.not_lt.2 low
  have below : b < 0xC2 := by
    rw [UInt8.lt_iff_toNat_lt]
    rw [UInt8.le_iff_toNat_le] at high
    exact Nat.lt_of_le_of_lt high (by decide)
  rw [first, if_neg notAscii, if_pos below]

/-- A decoder behind another on the same bytes: it has read fewer characters and will read no more
than the other from here on, or it is inside a character of which the other has replaced two bytes
or more. -/
inductive Behind (whole cut : Decoder) : Prop where
  | together (same : whole.beginning = cut.beginning)
      (fewer : whole.text.length < cut.text.length)
  | inside (begun : whole.beginning.isSome = true) (none : cut.beginning = none)
      (fewer : whole.text.length + 1 < cut.text.length)

theorem length_first (text : String) (b : UInt8) :
    (first text b).text.length = text.length + (first "" b).text.length ∧
      (first text b).beginning = (first "" b).beginning := by
  rw [first_eq_behind]
  exact ⟨String.length_append _ _, rfl⟩

theorem behind_first {s t : String} (fewer : s.length < t.length) (b : UInt8) :
    Behind (first s b) (first t b) := by
  obtain ⟨lengthS, beginningS⟩ := length_first s b
  obtain ⟨lengthT, beginningT⟩ := length_first t b
  exact .together (beginningS.trans beginningT.symm) (by omega)

/-- A continuation byte is replaced by a decoder that is between characters, and adds at most one
character where it is expected. -/
theorem feed_inside {d : Decoder} {b : UInt8} {text : String} (proper : d.IsProper)
    (on : d.goesOn b = true) (fewer : d.text.length < text.length) :
    Behind (d.feed b) (first text b) := by
  obtain ⟨own, beginning⟩ := d
  cases beginning with
  | none => cases on
  | some g =>
    obtain ⟨low, high⟩ := Bool.and_eq_true_iff.1 on
    obtain ⟨properLow, properHigh⟩ := Bool.and_eq_true_iff.1 proper
    have replaced := first_continuation text b
      (UInt8.le_trans (of_decide_eq_true properLow) (of_decide_eq_true low))
      (UInt8.le_trans (of_decide_eq_true high) (of_decide_eq_true properHigh))
    rw [replaced]
    simp only [feed, low, high, Bool.and_self, if_true]
    by_cases last : g.missing ≤ 1
    · rw [if_pos last]
      refine .together rfl ?_
      simp only [String.length_push]
      exact Nat.succ_lt_succ fewer
    · rw [if_neg last]
      refine .inside rfl rfl ?_
      simp only [String.length_push]
      exact Nat.succ_lt_succ fewer

/-- A decoder that is behind stays behind, by cases on how it is. -/
theorem behind_feed {whole cut : Decoder} (proper : whole.IsProper) (behind : Behind whole cut)
    (b : UInt8) : Behind (whole.feed b) (cut.feed b) := by
  obtain ⟨text, beginning⟩ := whole
  obtain ⟨cutText, cutBeginning⟩ := cut
  cases behind with
  | together same fewer =>
    cases same
    cases beginning with
    | none => exact behind_first fewer b
    | some g =>
      simp only [feed]
      split
      · split
        · refine .together rfl ?_
          simp only [String.length_push]
          exact Nat.succ_lt_succ fewer
        · exact .together rfl fewer
      · refine behind_first ?_ b
        simp only [String.length_push]
        exact Nat.succ_lt_succ fewer
  | inside begun none fewer =>
    cases none
    cases on : goesOn ⟨text, beginning⟩ b with
    | true => exact feed_inside proper on (Nat.lt_of_succ_lt fewer)
    | false =>
      have finished : finish ⟨text, beginning⟩ = text.push replacement := if_pos begun
      have anew : feed ⟨text, beginning⟩ b = first (text.push replacement) b := by
        rw [feed_anew _ b on, finished, first_eq_behind (text.push replacement)]
        rfl
      rw [anew]
      refine behind_first ?_ b
      rw [String.length_push]
      exact fewer

theorem behind_foldl {whole cut : Decoder} (proper : whole.IsProper) (behind : Behind whole cut)
    (bytes : List UInt8) : Behind (bytes.foldl feed whole) (bytes.foldl feed cut) := by
  induction bytes generalizing whole cut with
  | nil => exact behind
  | cons b rest ih => exact ih (isProper_feed whole b) (behind_feed proper behind b)

/-- And in the end it has fewer characters. -/
theorem length_finish_lt {whole cut : Decoder} (behind : Behind whole cut) :
    whole.finish.length < cut.finish.length := by
  unfold finish
  cases behind with
  | together same fewer =>
    rw [same]
    split
    · simp only [String.length_push]
      exact Nat.succ_lt_succ fewer
    · exact fewer
  | inside begun none fewer =>
    rw [if_pos begun, if_neg (by rw [none]; exact Bool.false_ne_true), String.length_push]
    exact fewer

end Decoder

open Decoder

/-- Whether bytes go on with a character that the bytes before them begin. -/
def continues (before next : List UInt8) : Bool :=
  next.head?.any (before.foldl feed .start).goesOn

/-- Bytes that begin anew add their own text. -/
theorem decodeLossy_append {before next : List UInt8} (anew : continues before next = false) :
    decodeLossy (before ++ next) = decodeLossy before ++ decodeLossy next := by
  unfold decodeLossy
  rw [List.foldl_append]
  cases next with
  | nil => exact String.append_empty.symm
  | cons b rest =>
    rw [List.foldl_cons, feed_anew _ b anew, foldl_feed_behind, finish_behind]
    rfl

/-- Bytes that go on with a character make fewer characters together than apart. -/
theorem length_decodeLossy_append_lt {before next : List UInt8}
    (on : continues before next = true) :
    (decodeLossy (before ++ next)).length <
      (decodeLossy before ++ decodeLossy next).length := by
  cases next with
  | nil => cases on
  | cons b rest =>
    have proper : (before.foldl feed .start).IsProper := isProper_foldl before .start rfl
    have begun : (before.foldl feed .start).beginning.isSome = true := by
      cases beginning : (before.foldl feed .start).beginning with
      | none =>
        rw [continues, List.head?_cons, Option.any_some, goesOn, beginning] at on
        cases on
      | some g => rfl
    have cut : decodeLossy before ++ decodeLossy (b :: rest) =
        ((b :: rest).foldl feed (start.behind (decodeLossy before))).finish := by
      rw [foldl_feed_behind, finish_behind]
      rfl
    have replaced : decodeLossy before = (before.foldl feed .start).text.push replacement :=
      if_pos begun
    have behind : Behind ((before.foldl feed .start).feed b)
        ((start.behind (decodeLossy before)).feed b) := by
      have text : (start.behind (decodeLossy before)).text = decodeLossy before :=
        String.append_empty
      refine feed_inside proper on ?_
      rw [text, replaced, String.length_push]
      exact Nat.lt_succ_self _
    rw [cut]
    unfold decodeLossy
    rw [List.foldl_append, List.foldl_cons, List.foldl_cons]
    exact length_finish_lt (behind_foldl (isProper_feed _ b) behind rest)

section Pieces

variable (piece : Nat → List UInt8)

/-- The bytes of the first pieces. -/
def joined : Nat → List UInt8
  | 0 => []
  | n + 1 => joined n ++ piece n

/-- The text of the first pieces, each read by itself. -/
def shown : Nat → String
  | 0 => ""
  | n + 1 => shown n ++ decodeLossy (piece n)

/-- Pieces never show fewer characters than there are, and show the same text exactly if no piece
goes on with a character begun before it. -/
theorem shown_spec (n : Nat) :
    (decodeLossy (joined piece n)).length ≤ (shown piece n).length ∧
      (shown piece n = decodeLossy (joined piece n) ↔
        ∀ i < n, continues (joined piece i) (piece i) = false) := by
  induction n with
  | zero => exact ⟨Nat.le_refl 0, fun _ i below => absurd below (Nat.not_lt_zero i), fun _ => rfl⟩
  | succ n ih =>
    obtain ⟨atLeast, same⟩ := ih
    have lengths := String.length_append (shown piece n) (decodeLossy (piece n))
    have lengthsApart := String.length_append (decodeLossy (joined piece n)) (decodeLossy (piece n))
    cases last : continues (joined piece n) (piece n) with
    | true =>
      have fewer := length_decodeLossy_append_lt last
      have differ : (decodeLossy (joined piece n ++ piece n)).length <
          (shown piece n ++ decodeLossy (piece n)).length := by omega
      refine ⟨Nat.le_of_lt differ, fun equal => ?_, fun none => ?_⟩
      · change shown piece n ++ _ = decodeLossy (joined piece n ++ piece n) at equal
        rw [equal] at differ
        exact absurd differ (Nat.lt_irrefl _)
      · rw [none n (Nat.lt_succ_self n)] at last
        cases last
    | false =>
      have apart := decodeLossy_append last
      refine ⟨?_, fun equal i below => ?_, fun none => ?_⟩
      · change (decodeLossy (joined piece n ++ piece n)).length ≤ (shown piece n ++ _).length
        rw [apart]
        omega
      · change shown piece n ++ _ = decodeLossy (joined piece n ++ piece n) at equal
        rw [apart] at equal
        obtain earlier | rfl := Nat.lt_succ_iff_lt_or_eq.1 below
        · exact same.1 (String.append_left_inj _ |>.1 equal) i earlier
        · exact last
      · have earlier := same.2 fun i below => none i (Nat.lt_succ_of_lt below)
        change shown piece n ++ _ = decodeLossy (joined piece n ++ piece n)
        rw [apart, earlier]

end Pieces

end Intel8080.Utf8
