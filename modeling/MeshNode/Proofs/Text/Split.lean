/-
# Pieces: cutting and joining

A text is the pieces it is cut into, with the separator between each two.

* `splitOn_joinWith`: joined pieces are cut at the same places again;
* `joinWith_splitOn`: the pieces give back the text, so no two texts have the same pieces;
* `of_mem_splitOn`: what is in a piece;
* `span_run`, `span_append`, `span_ends`: where a run of items ends in a list;
* `behind_last`, `inFront_last`: a text that is divided at the last separator.
-/
import MeshNode.Text.Split

namespace MeshNode.Text

variable {separator : Char}

theorem splitOn_ne_nil (separator : Char) : ∀ cs : List Char, splitOn separator cs ≠ []
  | [] => by simp [splitOn]
  | c :: rest => by
    rw [splitOn]
    split
    · simp
    · split <;> simp

/-- The separator ends a piece. -/
theorem splitOn_separator (separator : Char) (rest : List Char) :
    splitOn separator (separator :: rest) = [] :: splitOn separator rest := by
  rw [splitOn]
  split
  · exact absurd ‹_› (splitOn_ne_nil separator rest)
  · rw [if_pos rfl, ‹splitOn separator rest = _›]

/-- Any other character belongs to the first piece. -/
theorem splitOn_cons {c : Char} (hc : c ≠ separator) (rest : List Char) :
    ∃ piece pieces, splitOn separator rest = piece :: pieces ∧
      splitOn separator (c :: rest) = (c :: piece) :: pieces := by
  cases hs : splitOn separator rest with
  | nil => exact absurd hs (splitOn_ne_nil separator rest)
  | cons piece pieces => exact ⟨piece, pieces, rfl, by rw [splitOn, hs]; simp [hc]⟩

/-- A text without the separator is one piece. -/
theorem splitOn_of_not_mem : ∀ {cs : List Char}, separator ∉ cs → splitOn separator cs = [cs]
  | [], _ => rfl
  | c :: rest, h => by
    obtain ⟨hc, hrest⟩ := not_or.mp (fun hm => h (List.mem_cons.mpr hm))
    rw [splitOn, splitOn_of_not_mem hrest]
    simp [Ne.symm hc]

/-- The text in front of a separator is a piece of its own. -/
theorem splitOn_append : ∀ {front : List Char}, separator ∉ front → ∀ rest : List Char,
    splitOn separator (front ++ separator :: rest) = front :: splitOn separator rest
  | [], _, rest => splitOn_separator separator rest
  | c :: front, h, rest => by
    obtain ⟨hc, hfront⟩ := not_or.mp (fun hm => h (List.mem_cons.mpr hm))
    rw [List.cons_append, splitOn, splitOn_append hfront]
    simp [Ne.symm hc]

/-- A separator anywhere divides the pieces. -/
theorem splitOn_append_separator (cs rest : List Char) :
    splitOn separator (cs ++ separator :: rest) = splitOn separator cs ++ splitOn separator rest := by
  induction cs with
  | nil => exact splitOn_separator separator rest
  | cons c cs ih =>
    by_cases hc : c = separator
    · subst hc
      rw [List.cons_append, splitOn_separator, splitOn_separator, ih, List.cons_append]
    · obtain ⟨piece, pieces, hcs, hcons⟩ := splitOn_cons hc cs
      obtain ⟨piece', pieces', hall, hcons'⟩ := splitOn_cons hc (cs ++ separator :: rest)
      rw [ih, hcs, List.cons_append] at hall
      cases hall
      rw [List.cons_append, hcons', hcons, List.cons_append]

/-- **Parts with the separator in front of each** are the pieces behind the first separator. -/
theorem splitOn_flatMap : ∀ {part : List Char} {parts : List (List Char)},
    (∀ p ∈ part :: parts, separator ∉ p) →
      splitOn separator (part ++ parts.flatMap (separator :: ·)) = part :: parts
  | part, [], h => by
    rw [List.flatMap_nil, List.append_nil]
    exact splitOn_of_not_mem (h part (by simp))
  | part, next :: parts, h => by
    rw [List.flatMap_cons, List.cons_append, splitOn_append (h part (by simp)),
      splitOn_flatMap fun p hp => h p (List.mem_cons_of_mem _ hp)]

/-- Joined pieces are the first one, and the others each behind a separator. -/
theorem joinWith_cons (piece : List Char) : ∀ pieces : List (List Char),
    joinWith [separator] (piece :: pieces) = piece ++ pieces.flatMap (separator :: ·)
  | [] => by rw [joinWith, List.flatMap_nil, List.append_nil]
  | next :: pieces => by
    rw [joinWith, joinWith_cons next pieces]
    · simp
    · simp

/-- **Pieces without the separator** are what their text is cut into. -/
theorem splitOn_joinWith {pieces : List (List Char)} (hne : pieces ≠ [])
    (h : ∀ p ∈ pieces, separator ∉ p) :
    splitOn separator (joinWith [separator] pieces) = pieces := by
  cases pieces with
  | nil => exact absurd rfl hne
  | cons piece pieces =>
    rw [joinWith_cons]
    exact splitOn_flatMap h

/-- **The pieces give back the text.** -/
theorem joinWith_splitOn (separator : Char) : ∀ cs : List Char,
    joinWith [separator] (splitOn separator cs) = cs
  | [] => rfl
  | c :: rest => by
    have ih := joinWith_splitOn separator rest
    by_cases hc : c = separator
    · subst hc
      rw [splitOn_separator]
      cases hs : splitOn c rest with
      | nil => exact absurd hs (splitOn_ne_nil c rest)
      | cons piece pieces =>
        rw [hs] at ih
        rw [joinWith, ih]
        · rfl
        · simp
    · obtain ⟨piece, pieces, hs, hcons⟩ := splitOn_cons hc rest
      rw [hs] at ih
      rw [hcons, ← ih]
      cases pieces <;> rfl

/-- Texts with the same pieces are the same. -/
theorem splitOn_inj {cs ds : List Char} (h : splitOn separator cs = splitOn separator ds) :
    cs = ds := by
  rw [← joinWith_splitOn separator cs, h, joinWith_splitOn]

/-- **What is in a piece** is in the text and is not the separator. -/
theorem of_mem_splitOn : ∀ (cs : List Char), ∀ piece ∈ splitOn separator cs, ∀ c ∈ piece,
    c ∈ cs ∧ c ≠ separator
  | [], piece, h => by
    rw [List.mem_singleton.mp h]
    simp
  | c :: rest, piece, h => by
    intro d hd
    by_cases hc : c = separator
    · rw [hc, splitOn_separator] at h
      rcases List.mem_cons.mp h with rfl | h
      · cases hd
      · obtain ⟨hmem, hne⟩ := of_mem_splitOn rest piece h d hd
        exact ⟨List.mem_cons_of_mem _ hmem, hne⟩
    · obtain ⟨first, pieces, hs, hcons⟩ := splitOn_cons hc rest
      have ih : ∀ p ∈ first :: pieces, d ∈ p → d ∈ rest ∧ d ≠ separator := fun p hp hm =>
        of_mem_splitOn rest p (hs ▸ hp) d hm
      rw [hcons] at h
      rcases List.mem_cons.mp h with rfl | h
      · rcases List.mem_cons.mp hd with rfl | hd
        · exact ⟨List.mem_cons_self, hc⟩
        · obtain ⟨hmem, hne⟩ := ih first List.mem_cons_self hd
          exact ⟨List.mem_cons_of_mem _ hmem, hne⟩
      · obtain ⟨hmem, hne⟩ := ih piece (List.mem_cons_of_mem _ h) hd
        exact ⟨List.mem_cons_of_mem _ hmem, hne⟩

/-- What is in a text that was joined. -/
theorem mem_joinWith {separator : List Char} {c : Char} : ∀ {pieces : List (List Char)},
    c ∈ joinWith separator pieces → c ∈ separator ∨ ∃ p ∈ pieces, c ∈ p
  | [], h => by cases h
  | [p], h => .inr ⟨p, List.mem_singleton.mpr rfl, h⟩
  | p :: q :: rest, h => by
    rw [joinWith] at h
    · rcases List.mem_append.mp h with h | h
      · rcases List.mem_append.mp h with h | h
        · exact .inr ⟨p, List.mem_cons_self, h⟩
        · exact .inl h
      · rcases mem_joinWith h with h | ⟨r, hr, h⟩
        · exact .inl h
        · exact .inr ⟨r, List.mem_cons_of_mem p hr, h⟩
    · simp

/-! ## Runs -/

section Runs

variable {α : Type} {p : α → Bool} {front tail : List α}

theorem span_none (h : ∀ c ∈ tail.head?, p c = false) :
    tail.takeWhile p = [] ∧ tail.dropWhile p = tail := by
  cases tail with
  | nil => exact ⟨rfl, rfl⟩
  | cons c rest =>
    have hc := h c rfl
    constructor
    · exact List.takeWhile_cons_of_neg (by simp [hc])
    · exact List.dropWhile_cons_of_neg (by simp [hc])

/-- **A run of items ends** where what is behind it begins with another one. -/
theorem span_run (hfront : ∀ c ∈ front, p c = true) (htail : ∀ c ∈ tail.head?, p c = false) :
    (front ++ tail).takeWhile p = front ∧ (front ++ tail).dropWhile p = tail := by
  obtain ⟨htake, hdrop⟩ := span_none htail
  constructor
  · rw [List.takeWhile_append_of_pos hfront, htake, List.append_nil]
  · rw [List.dropWhile_append_of_pos hfront, hdrop]

/-- Where a run ends inside a list, it does not matter what is behind the list. -/
theorem span_append {xs : List α} (h : xs.dropWhile p ≠ []) (more : List α) :
    (xs ++ more).takeWhile p = xs.takeWhile p ∧
      (xs ++ more).dropWhile p = xs.dropWhile p ++ more := by
  have hlength : (xs.takeWhile p).length ≠ xs.length := by
    have hsum := congrArg List.length (List.takeWhile_append_dropWhile (p := p) (l := xs))
    have hpos := List.length_pos_iff.mpr h
    rw [List.length_append] at hsum
    omega
  constructor
  · rw [List.takeWhile_append, if_neg hlength]
  · rw [List.dropWhile_append, if_neg (by simpa using h)]

/-- What ends a run ends it behind any list. -/
theorem span_ends (h : ∀ c ∈ tail.head?, p c = false) (xs : List α) :
    (xs ++ tail).takeWhile p = xs.takeWhile p ∧
      (xs ++ tail).dropWhile p = xs.dropWhile p ++ tail := by
  by_cases hxs : xs.dropWhile p = []
  · have hall := List.takeWhile_append_dropWhile (p := p) (l := xs)
    rw [hxs, List.append_nil] at hall
    have hrun : ∀ c ∈ xs, p c = true := hall ▸ List.all_eq_true.mp List.all_takeWhile
    rw [hall, hxs]
    exact span_run hrun h
  · exact span_append hxs tail

end Runs

/-! ## The last separator -/

theorem differs_of_not_mem {back : List Char} (h : separator ∉ back) :
    ∀ c ∈ back.reverse, (c != separator) = true := by
  intro c hc
  exact bne_iff_ne.mpr fun heq => h (heq ▸ List.mem_reverse.mp hc)

/-- A text without the separator lies behind it as a whole. -/
theorem behind_none {back : List Char} (h : separator ∉ back) :
    (back.reverse.takeWhile (· != separator)).reverse = back := by
  have htake : (back.reverse ++ []).takeWhile (· != separator) = back.reverse ++ [] :=
    List.takeWhile_append_of_pos (differs_of_not_mem h)
  rw [List.append_nil] at htake
  rw [htake, List.reverse_reverse]

/-- What lies behind the last separator. -/
theorem behind_last {back : List Char} (h : separator ∉ back) (front : List Char) :
    ((front ++ separator :: back).reverse.takeWhile (· != separator)).reverse = back := by
  have hends : ∀ c ∈ (separator :: front.reverse).head?, (c != separator) = false := by simp
  rw [List.reverse_append, List.reverse_cons, List.append_assoc, List.singleton_append,
    (span_run (differs_of_not_mem h) hends).1, List.reverse_reverse]

/-- What lies in front of the last separator. -/
theorem inFront_last (front back : List Char) :
    (front ++ separator :: back).take
      ((front ++ separator :: back).length - back.length - 1) = front := by
  have hlength : (front ++ separator :: back).length - back.length - 1 = front.length := by
    rw [List.length_append, List.length_cons]
    omega
  rw [hlength, List.take_left]

end MeshNode.Text
