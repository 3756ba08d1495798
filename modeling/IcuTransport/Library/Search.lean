import Mathlib.Data.List.Infix

/-!
# Cutting a text at a separator or at a word

A text is a list over any alphabet. Three searches cut it in two: at the first occurrence of
a separator, at its last occurrence, and at the first occurrence of a word. The separator or
the word itself is dropped. Each search has one specification, which says what the two parts
are, and one lemma that evaluates it on a text already written in parts.

The specification of the word search speaks only of what stands before the occurrence: the
word does not occur in the part before it followed by all but the last letter of the word.
Nothing in it depends on what comes after, so the search gives the same cut whatever follows
the word (`splitInfix_append`).

Repeating a cut until it fails gives the pieces of a text (`pieces`). The number of rounds is
a budget; the length of the text is always enough (`pieces_budget`, `cutAll`).
-/

set_option autoImplicit false

namespace TextScan

universe u

variable {α : Type u}

/-- An item that ends a start of a list may as well not be there. -/
theorem takeWhile_concat {holds : α → Bool} {last : α} (ends : holds last = false) (text : List α) :
    (text ++ [last]).takeWhile holds = text.takeWhile holds := by
  rw [List.takeWhile_append, List.takeWhile_cons_of_neg (by simp [ends])]
  split
  · rename_i whole
    rw [(List.takeWhile_prefix _).eq_of_length whole, List.append_nil]
  · rfl

/-! ## The pieces of a text -/

/-- The pieces cut off a text, one a round, until the cut fails. -/
def pieces (cut : List α → Option (List α × List α)) : ℕ → List α → List (List α)
  | 0, _ => []
  | budget + 1, text =>
      match cut text with
      | none => []
      | some (piece, rest) => piece :: pieces cut budget rest

/-- A cut always leaves less than it was given. -/
def Shortens (cut : List α → Option (List α × List α)) : Prop :=
  ∀ text piece rest, cut text = some (piece, rest) → rest.length < text.length

/-- **Two budgets of at least the length of the text give the same pieces.** -/
theorem pieces_budget {cut : List α → Option (List α × List α)} (shortens : Shortens cut)
    {first second : ℕ} {text : List α} (enough : text.length ≤ first)
    (enough' : text.length ≤ second) : pieces cut first text = pieces cut second text := by
  induction first generalizing second text with
  | zero =>
      have nothing : cut text = none := by
        cases found : cut text with
        | none => rfl
        | some parts =>
            have less := shortens text parts.1 parts.2 found
            omega
      cases second with
      | zero => rfl
      | succ second => simp only [pieces, nothing]
  | succ first ih =>
      cases found : cut text with
      | none => cases second <;> simp only [pieces, found]
      | some parts =>
          have less := shortens text parts.1 parts.2 found
          cases second with
          | zero => omega
          | succ second =>
              simp only [pieces, found]
              exact congrArg (parts.1 :: ·) (ih (by omega) (by omega))

/-- All the pieces of a text. -/
def cutAll (cut : List α → Option (List α × List α)) (text : List α) : List (List α) :=
  pieces cut text.length text

theorem cutAll_of_none {cut : List α → Option (List α × List α)} {text : List α}
    (nothing : cut text = none) : cutAll cut text = [] := by
  rw [cutAll]
  cases text.length <;> simp only [pieces, nothing]

theorem cutAll_of_some {cut : List α → Option (List α × List α)} (shortens : Shortens cut)
    {text piece rest : List α} (found : cut text = some (piece, rest)) :
    cutAll cut text = piece :: cutAll cut rest := by
  have less := shortens text piece rest found
  obtain ⟨length, equal⟩ : ∃ length, text.length = length + 1 := ⟨text.length - 1, by omega⟩
  rw [cutAll, equal]
  simp only [pieces, found]
  exact congrArg (piece :: ·) (pieces_budget shortens (by omega) le_rfl)

/-! ## The earliest occurrence of a word -/

section Earliest

variable {word : List α}

/-- The word is not finished anywhere in the text before this occurrence of it ends. -/
def FirstAfter (word before : List α) : Prop := ¬ word <:+: before ++ word.dropLast

theorem FirstAfter.of_cons {head : α} {before : List α} (first : FirstAfter word (head :: before)) :
    FirstAfter word before := by
  intro occurs
  exact first (List.infix_cons_iff.mpr (Or.inr occurs))

theorem FirstAfter.not_prefix {head : α} {before : List α}
    (first : FirstAfter word (head :: before)) (after : List α) :
    ¬ word <+: head :: (before ++ word ++ after) := by
  intro starts
  apply first
  refine (List.prefix_of_prefix_length_le starts ?_ ?_).isInfix
  · refine ⟨word.drop (word.length - 1) ++ after, ?_⟩
    rw [List.dropLast_eq_take]
    simp only [List.cons_append, List.append_assoc, List.cons.injEq, true_and]
    rw [← List.append_assoc (word.take _), List.take_append_drop]
  · simp only [List.cons_append, List.length_cons, List.length_append, List.length_dropLast]
    omega

/-- A word cannot be finished before its last letter has been read. -/
theorem FirstAfter.of_not_mem {letters before : List α} {last : α}
    (absent : last ∉ before ++ letters) : FirstAfter (letters ++ [last]) before := by
  intro occurs
  rw [List.dropLast_concat] at occurs
  exact absent (occurs.subset (List.mem_append_right letters List.mem_cons_self))

end Earliest

/-! ## Lines -/

/-- Lines, each followed by the word that ends it. -/
def joinLines (word : List α) (lines : List (List α)) : List α := lines.flatMap (· ++ word)

@[simp] theorem joinLines_nil (word : List α) : joinLines word [] = [] := rfl

@[simp] theorem joinLines_cons (word line : List α) (lines : List (List α)) :
    joinLines word (line :: lines) = line ++ word ++ joinLines word lines := rfl

@[simp] theorem joinLines_append (word : List α) (first second : List (List α)) :
    joinLines word (first ++ second) = joinLines word first ++ joinLines word second :=
  List.flatMap_append

/-- Editing lines one by one. -/
theorem joinLines_filterMap_cons (word : List α) (edit : List α → Option (List α)) (line : List α)
    (lines : List (List α)) :
    joinLines word ((line :: lines).filterMap edit) =
      joinLines word (edit line).toList ++ joinLines word (lines.filterMap edit) := by
  cases edited : edit line with
  | none => rw [List.filterMap_cons_none edited]; rfl
  | some result =>
      rw [List.filterMap_cons_some edited, Option.toList_some, joinLines_cons, joinLines_cons,
        joinLines_nil, List.append_nil]

variable [DecidableEq α]

/-! ## The first and the last occurrence of a separator -/

/-- The parts of a text before and after the first occurrence of a separator. -/
def splitFirst (separator : α) : List α → Option (List α × List α)
  | [] => none
  | head :: rest =>
      if head = separator then some ([], rest)
      else (splitFirst separator rest).map fun parts => (head :: parts.1, parts.2)

/-- The parts of a text before and after the last occurrence of a separator. -/
def splitLast (separator : α) : List α → Option (List α × List α)
  | [] => none
  | head :: rest =>
      match splitLast separator rest with
      | some parts => some (head :: parts.1, parts.2)
      | none => if head = separator then some ([], rest) else none

theorem splitFirst_append_cons {separator : α} {before : List α} (absent : separator ∉ before)
    (after : List α) :
    splitFirst separator (before ++ separator :: after) = some (before, after) := by
  induction before with
  | nil => simp [splitFirst]
  | cons head rest ih =>
      rw [List.mem_cons, not_or] at absent
      have different : head ≠ separator := fun same => absent.1 same.symm
      simp only [List.cons_append, splitFirst, if_neg different, ih absent.2, Option.map_some]

/-- **The first cut**: the separator stands between the parts and not in the first one. -/
theorem splitFirst_eq_some_iff {separator : α} {text before after : List α} :
    splitFirst separator text = some (before, after) ↔
      text = before ++ separator :: after ∧ separator ∉ before := by
  constructor
  · intro found
    induction text generalizing before with
    | nil => cases found
    | cons head rest ih =>
        by_cases same : head = separator
        · simp only [splitFirst, if_pos same, Option.some.injEq, Prod.mk.injEq] at found
          obtain ⟨rfl, rfl⟩ := found
          simp [same]
        · simp only [splitFirst, if_neg same, Option.map_eq_some_iff] at found
          obtain ⟨⟨first, second⟩, foundRest, equal⟩ := found
          simp only [Prod.mk.injEq] at equal
          obtain ⟨rfl, rfl⟩ := equal
          obtain ⟨rfl, absent⟩ := ih foundRest
          refine ⟨rfl, ?_⟩
          rw [List.mem_cons, not_or]
          exact ⟨fun equal => same equal.symm, absent⟩
  · rintro ⟨rfl, absent⟩
    exact splitFirst_append_cons absent after

theorem splitFirst_eq_none_iff {separator : α} {text : List α} :
    splitFirst separator text = none ↔ separator ∉ text := by
  induction text with
  | nil => simp [splitFirst]
  | cons head rest ih =>
      by_cases same : head = separator
      · simp [splitFirst, same]
      · simp only [splitFirst, if_neg same, Option.map_eq_none_iff, ih, List.mem_cons, not_or]
        exact ⟨fun absent => ⟨fun equal => same equal.symm, absent⟩, fun absent => absent.2⟩

theorem splitLast_eq_none_iff {separator : α} {text : List α} :
    splitLast separator text = none ↔ separator ∉ text := by
  induction text with
  | nil => simp [splitLast]
  | cons head rest ih =>
      rw [List.mem_cons, not_or, ← ih]
      cases found : splitLast separator rest with
      | some parts => simp [splitLast, found]
      | none =>
          by_cases same : head = separator
          · simp [splitLast, found, same]
          · simp [splitLast, found, same, Ne.symm same]

/-- **The last cut**: the separator stands between the parts and not in the second one. -/
theorem splitLast_eq_some {separator : α} {text before after : List α}
    (found : splitLast separator text = some (before, after)) :
    text = before ++ separator :: after ∧ separator ∉ after := by
  induction text generalizing before with
  | nil => cases found
  | cons head rest ih =>
      cases foundRest : splitLast separator rest with
      | some parts =>
          simp only [splitLast, foundRest, Option.some.injEq, Prod.mk.injEq] at found
          obtain ⟨rfl, rfl⟩ := found
          obtain ⟨split, absent⟩ := ih foundRest
          exact ⟨congrArg (head :: ·) split, absent⟩
      | none =>
          simp only [splitLast, foundRest] at found
          split at found
          · rename_i same
            simp only [Option.some.injEq, Prod.mk.injEq] at found
            obtain ⟨rfl, rfl⟩ := found
            exact ⟨by simp [same], splitLast_eq_none_iff.mp foundRest⟩
          · cases found

theorem splitLast_append_cons {separator : α} {after : List α} (absent : separator ∉ after)
    (before : List α) :
    splitLast separator (before ++ separator :: after) = some (before, after) := by
  induction before with
  | nil =>
      rw [List.nil_append, splitLast, splitLast_eq_none_iff.mpr absent]
      exact if_pos rfl
  | cons head rest ih => rw [List.cons_append, splitLast, ih]

theorem splitFirst_shortens (separator : α) : Shortens (splitFirst separator) := by
  intro text piece rest found
  obtain ⟨rfl, _⟩ := splitFirst_eq_some_iff.mp found
  simp only [List.length_append, List.length_cons]
  omega

/-- No piece of a text holds the separator it was cut at. -/
theorem not_mem_of_mem_cutAll {separator : α} {text piece : List α}
    (member : piece ∈ cutAll (splitFirst separator) text) : separator ∉ piece := by
  induction length : text.length using Nat.strong_induction_on generalizing text with
  | _ length ih =>
      cases found : splitFirst separator text with
      | none =>
          rw [cutAll_of_none found] at member
          cases member
      | some parts =>
          obtain ⟨first, rest⟩ := parts
          rw [cutAll_of_some (splitFirst_shortens separator) found] at member
          rcases List.mem_cons.mp member with rfl | later
          · exact (splitFirst_eq_some_iff.mp found).2
          · have less := splitFirst_shortens separator _ _ _ found
            exact ih rest.length (by omega) later rfl

/-! ## The pieces between separators -/

/-- The piece before the first separator and what follows it; the last piece needs no separator. -/
def nextPiece (separator : α) (text : List α) : List α × List α :=
  match splitFirst separator text with
  | some parts => parts
  | none => (text, [])

/-- Cut off the next piece, while there is text. -/
def cutPiece (separator : α) (text : List α) : Option (List α × List α) :=
  if text = [] then none else some (nextPiece separator text)

theorem cutPiece_shortens (separator : α) : Shortens (cutPiece separator) := by
  intro text piece rest found
  unfold cutPiece at found
  split at found
  · cases found
  · rename_i nonempty
    unfold nextPiece at found
    cases split : splitFirst separator text with
    | some parts =>
        simp only [split, Option.some.injEq] at found
        subst found
        exact splitFirst_shortens separator text piece rest split
    | none =>
        simp only [split, Option.some.injEq, Prod.mk.injEq] at found
        obtain ⟨rfl, rfl⟩ := found
        exact List.length_pos_of_ne_nil nonempty

theorem cutPiece_of_split {separator : α} {text piece rest : List α}
    (found : splitFirst separator text = some (piece, rest)) :
    cutPiece separator text = some (piece, rest) := by
  have nonempty : text ≠ [] := by
    rintro rfl
    cases found
  rw [cutPiece, if_neg nonempty, nextPiece, found]

/-- The pieces of a text between separators. Nothing follows a separator at the very end. -/
def separated (separator : α) (text : List α) : List (List α) := cutAll (cutPiece separator) text

/-- No piece between separators holds one. -/
theorem not_mem_of_mem_splitOn {separator : α} {text piece : List α}
    (member : piece ∈ text.splitOn separator) : separator ∉ piece := by
  induction text generalizing piece with
  | nil =>
      rw [List.splitOn_nil, List.mem_singleton] at member
      rw [member]
      exact List.not_mem_nil
  | cons head rest ih =>
      rw [List.splitOn_cons_eq_if_modifyHead] at member
      split at member
      · rcases List.mem_cons.mp member with rfl | later
        · exact List.not_mem_nil
        · exact ih later
      · rename_i other
        cases pieces : rest.splitOn separator with
        | nil => exact absurd pieces (List.splitOn_ne_nil separator rest)
        | cons first others =>
            rw [pieces, List.modifyHead_cons] at member
            rcases List.mem_cons.mp member with rfl | later
            · rw [List.mem_cons, not_or]
              exact ⟨fun same => other (beq_iff_eq.mpr same.symm), ih (pieces ▸ List.mem_cons_self)⟩
            · exact ih (pieces ▸ List.mem_cons_of_mem first later)

/-- Cutting at every separator leaves one more piece, an empty one, where the text is empty or ends
with a separator. -/
theorem splitOn_eq_separated (separator : α) (text : List α) :
    text.splitOn separator = separated separator text ∨
      text.splitOn separator = separated separator text ++ [[]] := by
  induction length : text.length using Nat.strong_induction_on generalizing text with
  | _ length ih =>
      cases found : splitFirst separator text with
      | none =>
          have absent := splitFirst_eq_none_iff.mp found
          rw [List.splitOn_eq_singleton absent]
          by_cases empty : text = []
          · subst empty
            exact Or.inr rfl
          · left
            have whole : cutPiece separator text = some (text, []) := by
              rw [cutPiece, if_neg empty, nextPiece, found]
            rw [separated, cutAll_of_some (cutPiece_shortens separator) whole]
            rfl
      | some parts =>
          obtain ⟨line, rest⟩ := parts
          obtain ⟨rfl, absent⟩ := splitFirst_eq_some_iff.mp found
          have less := splitFirst_shortens separator _ _ _ found
          rw [List.splitOn_append_cons_self, List.splitOn_eq_singleton absent, separated,
            cutAll_of_some (cutPiece_shortens separator) (cutPiece_of_split found)]
          rcases ih rest.length (by omega) rest rfl with same | same
          · left
            rw [same]
            rfl
          · right
            rw [same]
            rfl

/-- A start without separators belongs to the first piece. -/
theorem splitOn_append_of_not_mem {separator : α} {start : List α} (absent : separator ∉ start)
    (text : List α) :
    (start ++ text).splitOn separator = (text.splitOn separator).modifyHead (start ++ ·) := by
  induction start with
  | nil => cases pieces : text.splitOn separator <;> simp [pieces]
  | cons head rest ih =>
      rw [List.mem_cons, not_or] at absent
      have other : ¬ (head == separator) = true := fun same => absent.1 (beq_iff_eq.mp same).symm
      rw [List.cons_append, List.splitOn_cons_eq_if_modifyHead, if_neg other, ih absent.2,
        List.modifyHead_modifyHead]
      rfl

/-! ## Searching for a word -/

/-- The parts of a text before and after the first occurrence of a word. -/
def splitInfix (word : List α) : List α → Option (List α × List α)
  | [] => if word = [] then some ([], []) else none
  | head :: rest =>
      if word.isPrefixOf (head :: rest) then some ([], (head :: rest).drop word.length)
      else (splitInfix word rest).map fun parts => (head :: parts.1, parts.2)

section Words

variable {word : List α}

theorem splitInfix_append {before : List α} (first : FirstAfter word before) (after : List α) :
    splitInfix word (before ++ word ++ after) = some (before, after) := by
  induction before with
  | nil =>
      rw [List.nil_append]
      cases whole : word ++ after with
      | nil =>
          obtain ⟨rfl, rfl⟩ := List.append_eq_nil_iff.mp whole
          rfl
      | cons head rest =>
          have starts : word.isPrefixOf (head :: rest) = true :=
            List.isPrefixOf_iff_prefix.mpr ⟨after, whole⟩
          rw [splitInfix, if_pos starts, ← whole, List.drop_left]
  | cons head before ih =>
      have starts : ¬ word.isPrefixOf (head :: (before ++ word ++ after)) = true := fun holds =>
        first.not_prefix after (List.isPrefixOf_iff_prefix.mp holds)
      simp only [List.cons_append, splitInfix, if_neg starts, ih first.of_cons, Option.map_some]

/-- What a successful word search found. -/
theorem splitInfix_eq_some (nonempty : word ≠ []) {text before after : List α}
    (found : splitInfix word text = some (before, after)) :
    text = before ++ word ++ after ∧ FirstAfter word before := by
  induction text generalizing before with
  | nil => simp [splitInfix, nonempty] at found
  | cons head rest ih =>
      by_cases starts : word.isPrefixOf (head :: rest) = true
      · simp only [splitInfix, if_pos starts, Option.some.injEq, Prod.mk.injEq] at found
        obtain ⟨rfl, rfl⟩ := found
        refine ⟨?_, ?_⟩
        · exact (List.prefix_append_drop (List.isPrefixOf_iff_prefix.mp starts))
        · intro occurs
          have long := occurs.length_le
          have positive := List.length_pos_of_ne_nil nonempty
          simp only [List.nil_append, List.length_dropLast] at long
          omega
      · simp only [splitInfix, if_neg starts, Option.map_eq_some_iff] at found
        obtain ⟨⟨first, second⟩, foundRest, equal⟩ := found
        simp only [Prod.mk.injEq] at equal
        obtain ⟨rfl, rfl⟩ := equal
        obtain ⟨rfl, earliest⟩ := ih foundRest
        refine ⟨rfl, fun occurs => ?_⟩
        rcases List.infix_cons_iff.mp occurs with here | later
        · apply starts
          refine List.isPrefixOf_iff_prefix.mpr (here.trans ?_)
          rw [List.cons_prefix_cons]
          refine ⟨rfl, ?_⟩
          rw [List.append_assoc]
          exact (List.prefix_append_right_inj first).mpr
            ((List.dropLast_prefix word).trans (List.prefix_append word second))
        · exact earliest later

theorem splitInfix_eq_none_iff (nonempty : word ≠ []) {text : List α} :
    splitInfix word text = none ↔ ¬ word <:+: text := by
  induction text with
  | nil => simp [splitInfix, nonempty]
  | cons head rest ih =>
      rw [List.infix_cons_iff, not_or, ← ih]
      by_cases starts : word.isPrefixOf (head :: rest) = true
      · simp [splitInfix, starts, List.isPrefixOf_iff_prefix.mp starts]
      · have noPrefix : ¬ word <+: head :: rest := fun holds =>
          starts (List.isPrefixOf_iff_prefix.mpr holds)
        simp [splitInfix, starts, noPrefix]

theorem splitInfix_shortens (nonempty : word ≠ []) : Shortens (splitInfix word) := by
  intro text piece rest found
  obtain ⟨rfl, _⟩ := splitInfix_eq_some nonempty found
  have positive := List.length_pos_of_ne_nil nonempty
  simp only [List.length_append]
  omega

end Words

end TextScan
