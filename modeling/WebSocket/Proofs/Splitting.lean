import Mathlib.Data.List.Basic
import Mathlib.Data.List.TakeWhile
import Mathlib.Tactic.MkIffOfInductiveProp
import WebSocket.Text.Blank
import WebSocket.Text.Tokens

/-!
# What splitting a text gives

The lines, the words and the trimmed middle of a text, and the two sides of a mark in it, each
told without a function that looks for them, as a way to put the text together. There is one such
way only, and `lines`, `tokens`, `trim` and `splitFirst?` find it (`lines_eq_iff`,
`tokens_eq_iff`, `trim_eq_iff`, `splitFirst?_eq_some_iff`).
-/

namespace WebSocket.Text

/-! ## The two sides of a mark -/

section Sides

variable {α : Type} [DecidableEq α] {mark : α} {before after front back : List α}

theorem takeWhile_append_mark (absent : mark ∉ before) :
    (before ++ mark :: after).takeWhile (· != mark) = before := by
  have others : ∀ c ∈ before, (c != mark) = true :=
    fun c member => bne_iff_ne.mpr (ne_of_mem_of_not_mem member absent)
  rw [List.takeWhile_append_of_pos others, List.takeWhile_cons_of_neg (by simp), List.append_nil]

theorem dropWhile_append_mark (absent : mark ∉ before) :
    (before ++ mark :: after).dropWhile (· != mark) = mark :: after := by
  have others : ∀ c ∈ before, (c != mark) = true :=
    fun c member => bne_iff_ne.mpr (ne_of_mem_of_not_mem member absent)
  rw [List.dropWhile_append_of_pos others, List.dropWhile_cons_of_neg (by simp)]

/-- A list is split at its first `mark` in one way. -/
theorem sides_unique (absent : mark ∉ before) (missing : mark ∉ front)
    (same : before ++ mark :: after = front ++ mark :: back) : before = front ∧ after = back := by
  have left := congrArg (List.takeWhile (· != mark)) same
  have right := congrArg (List.dropWhile (· != mark)) same
  rw [takeWhile_append_mark absent, takeWhile_append_mark missing] at left
  rw [dropWhile_append_mark absent, dropWhile_append_mark missing] at right
  exact ⟨left, List.tail_eq_of_cons_eq right⟩

end Sides

theorem splitFirst?_eq_some_iff {mark : Char} {text before after : List Char} :
    splitFirst? mark text = some (before, after) ↔
      text = before ++ mark :: after ∧ mark ∉ before := by
  constructor
  · intro split
    unfold splitFirst? at split
    split at split
    · cases split
    · next found rest dropped =>
      cases split
      have stops : (found != mark) = false := by
        have past := List.head?_dropWhile_not (· != mark) text
        rwa [dropped] at past
      have same : found = mark := by simpa using stops
      refine ⟨?_, fun member => ?_⟩
      · rw [← same, ← dropped, same, List.takeWhile_append_dropWhile]
      · simpa using List.mem_takeWhile_imp member
  · rintro ⟨rfl, absent⟩
    unfold splitFirst?
    rw [dropWhile_append_mark absent, takeWhile_append_mark absent]

/-! ## Lines -/

section Lines

variable {α : Type} [DecidableEq α] {feed carriage c : α} {raw text : List α}
  {lines others : List (List α)}

/-- A line without one carriage return in front of its end. -/
def chomp (carriage : α) (raw : List α) : List α :=
  if raw.getLast? = some carriage then raw.dropLast else raw

/-- A text and its lines: a line feed ends a line, together with a carriage return right before
it, and what stands behind the last line feed is a line as it is. -/
@[mk_iff]
inductive Lined (feed carriage : α) : List α → List (List α) → Prop where
  | nil : Lined feed carriage [] []
  | unended {line : List α} (nonempty : line ≠ []) (inside : feed ∉ line) :
    Lined feed carriage line [line]
  | ended {raw text : List α} {lines : List (List α)} (inside : feed ∉ raw)
    (more : Lined feed carriage text lines) :
    Lined feed carriage (raw ++ feed :: text) (chomp carriage raw :: lines)

theorem chomp_cons (different : raw = [] → c ≠ carriage) :
    chomp carriage (c :: raw) = c :: chomp carriage raw := by
  unfold chomp
  cases raw with
  | nil => simp [different rfl]
  | cons next raw =>
    rw [List.getLast?_cons_cons, List.dropLast_cons_cons]
    split <;> rfl

theorem chomp_eq_nil_iff : chomp carriage raw = [] ↔ raw = [] ∨ raw = [carriage] := by
  rcases List.eq_nil_or_concat raw with rfl | ⟨before, last, rfl⟩
  · simp [chomp]
  · by_cases same : last = carriage <;> simp [chomp, same, List.append_eq_singleton_iff]

theorem Lined.unique (first : Lined feed carriage text lines)
    (second : Lined feed carriage text others) : lines = others := by
  induction first generalizing others with
  | nil =>
    rcases (lined_iff ..).mp second with ⟨-, rfl⟩ | ⟨nonempty, -⟩ |
      ⟨raw, rest, more, -, -, split, -⟩
    · rfl
    · exact absurd rfl nonempty
    · simp at split
  | unended nonempty inside =>
    rcases (lined_iff ..).mp second with ⟨rfl, -⟩ | ⟨-, -, rfl⟩ | ⟨raw, rest, more, -, -, rfl, -⟩
    · exact absurd rfl nonempty
    · rfl
    · exact absurd (List.mem_append_right raw List.mem_cons_self) inside
  | ended inside more ih =>
    rcases (lined_iff ..).mp second with ⟨split, -⟩ | ⟨-, feedless, -⟩ |
      ⟨raw, rest, more, within, further, split, rfl⟩
    · simp at split
    · exact absurd (List.mem_append_right _ List.mem_cons_self) feedless
    · obtain ⟨rfl, rfl⟩ := sides_unique inside within split
      rw [ih further]

theorem exists_lined (feed carriage : α) (text : List α) :
    ∃ lines, Lined feed carriage text lines := by
  by_cases held : feed ∈ text
  · obtain ⟨raw, rest, split, inside⟩ := List.eq_append_cons_of_mem held
    obtain ⟨lines, more⟩ := exists_lined feed carriage rest
    rw [split]
    exact ⟨_, .ended inside more⟩
  · by_cases nothing : text = []
    · rw [nothing]
      exact ⟨[], .nil⟩
    · exact ⟨[text], .unended nothing held⟩
termination_by text.length
decreasing_by
  rw [split, List.length_append, List.length_cons]
  omega

theorem Lined.eq_nil_iff (lined : Lined feed carriage text lines) : lines = [] ↔ text = [] := by
  cases lined with
  | nil => exact iff_of_true rfl rfl
  | unended nonempty inside => simpa using nonempty
  | ended inside more => simp

/-- Lines that are written with one line end behind each are read again. -/
theorem lined_flatMap {ending : List α} (ends : ending = [feed] ∨ ending = [carriage, feed])
    (other : feed ≠ carriage)
    (whole : ∀ line ∈ lines, feed ∉ line ∧ line.getLast? ≠ some carriage) :
    Lined feed carriage (lines.flatMap (· ++ ending)) lines := by
  induction lines with
  | nil => exact .nil
  | cons line lines ih =>
    obtain ⟨⟨inside, last⟩, whole⟩ := List.forall_mem_cons.mp whole
    have more := ih whole
    rw [List.flatMap_cons]
    generalize lines.flatMap (· ++ ending) = text at more ⊢
    rcases ends with rfl | rfl
    · have kept : chomp carriage line = line := if_neg last
      have ended : Lined feed carriage (line ++ feed :: text) (chomp carriage line :: lines) :=
        .ended inside more
      rwa [kept, List.append_cons] at ended
    · have kept : chomp carriage (line ++ [carriage]) = line := by simp [chomp]
      have ended : Lined feed carriage (line ++ [carriage] ++ feed :: text)
          (chomp carriage (line ++ [carriage]) :: lines) :=
        .ended (by simpa using ⟨inside, other⟩) more
      rw [kept] at ended
      simpa using ended

end Lines

/-- The lines of a text of characters. -/
abbrev LinesOf (text : List Char) (parts : List (List Char)) : Prop := Lined '\n' '\r' text parts

variable {text : List Char} {parts words : List (List Char)} {c : Char}

/-- A character in front of a text stands in its first line, unless it ends one. -/
theorem Lined.consFirst (lined : LinesOf text parts) (further : c ≠ '\n')
    (loose : c = '\r' → text.head? ≠ some '\n') : LinesOf (c :: text) (consFirst c parts) := by
  cases lined with
  | nil => exact .unended (List.cons_ne_nil c []) (by simpa using further.symm)
  | unended nonempty inside =>
    exact .unended (List.cons_ne_nil c text)
      (List.not_mem_cons_of_ne_of_not_mem further.symm inside)
  | @ended raw rest lines inside more =>
    have kept : chomp '\r' (c :: raw) = c :: chomp '\r' raw :=
      chomp_cons fun empty same => loose same (by rw [empty]; rfl)
    rw [Text.consFirst, ← kept]
    exact .ended (List.not_mem_cons_of_ne_of_not_mem further.symm inside) more

theorem linesOf_lines (text : List Char) : LinesOf text (lines text) := by
  fun_induction lines text with
  | case1 => exact .nil
  | case2 rest ih =>
    have ended : LinesOf ([] ++ '\n' :: rest) (chomp '\r' [] :: lines rest) :=
      .ended List.not_mem_nil ih
    exact ended
  | case3 rest ih =>
    have ended : LinesOf (['\r'] ++ '\n' :: rest) (chomp '\r' ['\r'] :: lines rest) :=
      .ended (by decide) ih
    exact ended
  | case4 c rest further loose ih =>
    refine ih.consFirst further fun same follows => ?_
    obtain ⟨after, rfl⟩ := List.head?_eq_some_iff.mp follows
    exact loose after same rfl

theorem lines_eq_iff : lines text = parts ↔ LinesOf text parts :=
  ⟨fun same => same ▸ linesOf_lines text, fun lined => (linesOf_lines text).unique lined⟩

/-! ## Words -/

/-- A text and its words: each is as long as it can be, and what stands around them is nothing but
separators. -/
inductive Worded (isSeparator : Char → Bool) : List Char → List (List Char) → Prop where
  | nil {gap : List Char} (outside : ∀ c ∈ gap, isSeparator c) : Worded isSeparator gap []
  | cons {gap word text : List Char} {words : List (List Char)}
    (outside : ∀ c ∈ gap, isSeparator c) (nonempty : word ≠ [])
    (inside : ∀ c ∈ word, isSeparator c = false) (stops : ∀ c ∈ text.head?, isSeparator c)
    (more : Worded isSeparator text words) :
    Worded isSeparator (gap ++ word ++ text) (word :: words)

variable {isSeparator : Char → Bool} {gap word : List Char}

theorem tokens_append_of_separators (outside : ∀ c ∈ gap, isSeparator c) :
    tokens isSeparator (gap ++ text) = tokens isSeparator text := by
  induction gap with
  | nil => rfl
  | cons first gap ih =>
    rw [List.cons_append, tokens, if_pos (outside first List.mem_cons_self)]
    exact ih fun c member => outside c (List.mem_cons_of_mem first member)

theorem tokens_append_of_word (nonempty : word ≠ []) (inside : ∀ c ∈ word, isSeparator c = false)
    (stops : ∀ c ∈ text.head?, isSeparator c) :
    tokens isSeparator (word ++ text) = word :: tokens isSeparator text := by
  cases word with
  | nil => exact absurd rfl nonempty
  | cons first word =>
    have within : ∀ c ∈ word, (!isSeparator c) = true := fun c member => by
      simp [inside c (List.mem_cons_of_mem first member)]
    have taken : text.takeWhile (!isSeparator ·) = [] ∧ text.dropWhile (!isSeparator ·) = text := by
      cases text with
      | nil => exact ⟨rfl, rfl⟩
      | cons next text => simp [stops next rfl]
    rw [List.cons_append, tokens, if_neg (by simp [inside first List.mem_cons_self]),
      List.takeWhile_append_of_pos within, List.dropWhile_append_of_pos within, taken.1, taken.2,
      List.append_nil]

theorem Worded.cons_gap (separator : isSeparator c) (worded : Worded isSeparator text words) :
    Worded isSeparator (c :: text) words := by
  have more {gap : List Char} (outside : ∀ c ∈ gap, isSeparator c) :
      ∀ other ∈ c :: gap, isSeparator other :=
    List.forall_mem_cons.mpr ⟨separator, outside⟩
  cases worded with
  | nil outside => exact .nil (more outside)
  | @cons gap word text words outside nonempty inside stops rest =>
    have longer : Worded isSeparator (c :: gap ++ word ++ text) (word :: words) :=
      .cons (more outside) nonempty inside stops rest
    exact longer

theorem worded_tokens (isSeparator : Char → Bool) (text : List Char) :
    Worded isSeparator text (tokens isSeparator text) := by
  fun_induction tokens isSeparator text with
  | case1 => exact .nil nofun
  | case2 first rest separator ih => exact ih.cons_gap separator
  | case3 first rest inside ih =>
    have split : first :: rest = [] ++ (first :: rest.takeWhile (!isSeparator ·)) ++
        rest.dropWhile (!isSeparator ·) := by
      rw [List.nil_append, List.cons_append, List.takeWhile_append_dropWhile]
    have within : ∀ c ∈ first :: rest.takeWhile (!isSeparator ·), isSeparator c = false := by
      refine List.forall_mem_cons.mpr ⟨by simpa using inside, fun c member => ?_⟩
      simpa using List.mem_takeWhile_imp member
    have stops : ∀ c ∈ (rest.dropWhile (!isSeparator ·)).head?, isSeparator c := by
      intro c first
      have past := List.head?_dropWhile_not (!isSeparator ·) rest
      rw [Option.mem_def.mp first] at past
      simpa using past
    rw [split]
    exact .cons nofun (List.cons_ne_nil _ _) within stops ih

theorem tokens_eq_iff : tokens isSeparator text = words ↔ Worded isSeparator text words := by
  refine ⟨fun same => same ▸ worded_tokens isSeparator text, fun worded => ?_⟩
  induction worded with
  | @nil gap outside =>
    have nothing : tokens isSeparator (gap ++ []) = tokens isSeparator [] :=
      tokens_append_of_separators outside
    rwa [List.append_nil, tokens] at nothing
  | cons outside nonempty inside stops more ih =>
    rw [List.append_assoc, tokens_append_of_separators outside,
      tokens_append_of_word nonempty inside stops, ih]

/-! ## Trimmed text -/

/-- No end of this text is blank. -/
def Trimmed (core : List Char) : Prop :=
  (∀ c ∈ core.head?, isBlank c = false) ∧ ∀ c ∈ core.getLast?, isBlank c = false

instance (core : List Char) : Decidable (Trimmed core) :=
  decidable_of_iff
    (core.head?.all (!isBlank ·) = true ∧ core.getLast?.all (!isBlank ·) = true)
    (by simp [Trimmed, Option.all_eq_true])

/-- A text, and what it is without the blanks at its ends. -/
def Trims (text core : List Char) : Prop :=
  Trimmed core ∧ ∃ left right, text = left ++ core ++ right ∧
    (∀ c ∈ left, isBlank c) ∧ ∀ c ∈ right, isBlank c

/-- The blanks in front of a text end where it is not blank. -/
theorem dropWhile_isBlank_append {left rest : List Char} (blank : ∀ c ∈ left, isBlank c)
    (stops : ∀ c, rest.head? = some c → isBlank c = false) :
    (left ++ rest).dropWhile isBlank = rest := by
  rw [List.dropWhile_append_of_pos blank]
  cases rest with
  | nil => rfl
  | cons first rest => exact List.dropWhile_cons_of_neg (by simp [stops first rfl])

theorem trim_of_trims {core : List Char} (trims : Trims text core) : trim text = core := by
  obtain ⟨trimmed, left, right, rfl, before, behind⟩ := trims
  have reversed : ∀ c ∈ right.reverse, isBlank c := fun c member =>
    behind c (List.mem_reverse.mp member)
  rw [trim, List.append_assoc]
  cases core with
  | nil =>
    have nothing : (left ++ ([] ++ right)).dropWhile isBlank = [] :=
      List.dropWhile_eq_nil_iff.mpr (List.forall_mem_append.mpr ⟨before, behind⟩)
    rw [nothing]
    rfl
  | cons first core =>
    have start : (left ++ (first :: core ++ right)).dropWhile isBlank = first :: core ++ right :=
      dropWhile_isBlank_append before trimmed.1
    have finish : (right.reverse ++ (first :: core).reverse).dropWhile isBlank =
        (first :: core).reverse :=
      dropWhile_isBlank_append reversed fun c same =>
        trimmed.2 c (List.head?_reverse.symm.trans same)
    rw [start, List.reverse_append, finish, List.reverse_reverse]

theorem isBlank_head?_dropWhile {first : Char}
    (same : (text.dropWhile isBlank).head? = some first) : isBlank first = false := by
  have past := List.head?_dropWhile_not isBlank text
  rwa [same] at past

theorem trims_trim (text : List Char) : Trims text (trim text) := by
  have front := List.takeWhile_append_dropWhile (p := isBlank) (l := text)
  generalize rest : text.dropWhile isBlank = middle at front
  have back : trim text ++ (middle.reverse.takeWhile isBlank).reverse = middle := by
    rw [trim, rest, ← List.reverse_append, List.takeWhile_append_dropWhile, List.reverse_reverse]
  refine ⟨⟨fun c first => ?_, fun c last => ?_⟩, text.takeWhile isBlank,
    (middle.reverse.takeWhile isBlank).reverse, by rw [List.append_assoc, back, front],
    fun c member => List.mem_takeWhile_imp member,
    fun c member => List.mem_takeWhile_imp (List.mem_reverse.mp member)⟩
  · obtain ⟨others, shape⟩ := List.head?_eq_some_iff.mp first
    have start : (text.dropWhile isBlank).head? = some c := by
      rw [rest, ← back, shape]
      rfl
    exact isBlank_head?_dropWhile start
  · rw [trim, List.getLast?_reverse] at last
    exact isBlank_head?_dropWhile last

theorem trim_eq_iff {core : List Char} : trim text = core ↔ Trims text core := by
  refine ⟨?_, trim_of_trims⟩
  rintro rfl
  exact trims_trim text

end WebSocket.Text
