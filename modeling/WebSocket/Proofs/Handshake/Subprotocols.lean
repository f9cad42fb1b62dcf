import WebSocket.Handshake.Request
import WebSocket.Proofs.Splitting

/-!
# Lists of subprotocols

A list of subprotocols is taken apart into its longest runs of characters that are no separators,
one token for each run, in the order in which they stand in the list (`Text.exists_runs`). It
follows that a list may be written with any separators between its tokens and around them, and
that two lists may be joined by a comma (`Request.parseProtocols_spell`).
-/

namespace WebSocket.Text

variable {isSeparator : Char → Bool} {text more gap word run : List Char}
  {words others : List (List Char)} {c : Char} {start : Nat}

/-! ## Two texts with a separator between them -/

theorem Worded.append (first : Worded isSeparator text words) (separator : isSeparator c)
    (second : Worded isSeparator more others) :
    Worded isSeparator (text ++ c :: more) (words ++ others) := by
  induction first with
  | @nil gap outside =>
    induction gap with
    | nil => exact second.cons_gap separator
    | cons first gap ih =>
      obtain ⟨now, later⟩ := List.forall_mem_cons.mp outside
      exact (ih later).cons_gap now
  | @cons gap word text words outside nonempty inside stops _ ih =>
    rw [List.append_assoc]
    refine .cons outside nonempty inside (fun first member => ?_) ih
    cases text with
    | nil => exact Option.some.inj member ▸ separator
    | cons => exact stops first member

theorem tokens_append_cons (separator : isSeparator c) :
    tokens isSeparator (text ++ c :: more) =
      tokens isSeparator text ++ tokens isSeparator more :=
  tokens_eq_iff.mpr ((worded_tokens ..).append separator (worded_tokens ..))

/-! ## Longest runs -/

/-- A longest run without separators: what stands at `start`, up to a separator or an end of the
text on either side. -/
structure IsRun (isSeparator : Char → Bool) (text : List Char) (start : Nat) (run : List Char) :
    Prop where
  nonempty : run ≠ []
  inside : ∀ c ∈ run, isSeparator c = false
  here : run <+: text.drop start
  left : ∀ c ∈ (text.take start).getLast?, isSeparator c
  right : ∀ c ∈ (text.drop (start + run.length)).head?, isSeparator c

theorem not_isRun_nil : ¬ IsRun isSeparator [] start run := by
  intro isRun
  have nothing : run <+: [] := by simpa using isRun.here
  exact isRun.nonempty (List.prefix_nil.mp nothing)

/-- No run begins with a separator. -/
theorem IsRun.head (isRun : IsRun isSeparator text 0 run) :
    ∀ c ∈ text.head?, isSeparator c = false := by
  intro c first
  obtain ⟨rest, split⟩ := isRun.here
  cases run with
  | nil => exact absurd rfl isRun.nonempty
  | cons d run =>
    have same : d = c := by
      rw [List.drop_zero] at split
      rw [← split] at first
      exact Option.some.inj first
    exact same ▸ isRun.inside d List.mem_cons_self

theorem isRun_cons (separator : isSeparator c) :
    IsRun isSeparator (c :: text) start run ↔
      ∃ place, start = 1 + place ∧ IsRun isSeparator text place run := by
  constructor
  · intro isRun
    cases start with
    | zero => exact absurd separator (by simp [isRun.head c rfl])
    | succ place =>
      refine ⟨place, Nat.add_comm .., isRun.nonempty, isRun.inside, isRun.here, ?_, ?_⟩
      · intro d last
        refine isRun.left d ?_
        rw [List.take_succ_cons, List.getLast?_cons, Option.mem_def.mp last]
        rfl
      · have right := isRun.right
        rwa [Nat.add_right_comm, List.drop_succ_cons] at right
  · rintro ⟨place, rfl, isRun⟩
    rw [Nat.add_comm]
    refine ⟨isRun.nonempty, isRun.inside, isRun.here, ?_, ?_⟩
    · intro d last
      rw [List.take_succ_cons, List.getLast?_cons] at last
      cases before : (text.take place).getLast? with
      | none =>
        rw [before] at last
        exact Option.some.inj last ▸ separator
      | some e =>
        rw [before] at last
        exact Option.some.inj last ▸ isRun.left e before
    · rw [Nat.add_right_comm, List.drop_succ_cons]
      exact isRun.right

theorem isRun_append_of_separators (outside : ∀ c ∈ gap, isSeparator c) :
    IsRun isSeparator (gap ++ text) start run ↔
      ∃ place, start = gap.length + place ∧ IsRun isSeparator text place run := by
  induction gap generalizing start with
  | nil => simp
  | cons first gap ih =>
    obtain ⟨now, later⟩ := List.forall_mem_cons.mp outside
    rw [List.cons_append, isRun_cons now, List.length_cons]
    simp only [ih later]
    constructor
    · rintro ⟨_, rfl, place, rfl, isRun⟩
      exact ⟨place, by omega, isRun⟩
    · rintro ⟨place, rfl, isRun⟩
      exact ⟨gap.length + place, by omega, place, rfl, isRun⟩

/-- A run that begins where a word begins is that word. -/
theorem IsRun.eq_word (isRun : IsRun isSeparator (word ++ text) 0 run)
    (inside : ∀ c ∈ word, isSeparator c = false) (stops : ∀ c ∈ text.head?, isSeparator c) :
    run = word := by
  have here : run <+: word ++ text := isRun.here
  have right : ∀ c ∈ ((word ++ text).drop run.length).head?, isSeparator c := by
    simpa only [Nat.zero_add] using isRun.right
  rcases Nat.lt_trichotomy run.length word.length with short | same | long
  · -- The word goes on behind the run.
    rw [List.drop_append_of_le_length (Nat.le_of_lt short),
      List.drop_eq_getElem_cons short] at right
    have separator : isSeparator word[run.length] = true := right _ rfl
    rw [inside _ (List.getElem_mem short)] at separator
    cases separator
  · have prefixes : run <+: word :=
      List.prefix_of_prefix_length_le here (List.prefix_append ..) (Nat.le_of_eq same)
    exact prefixes.eq_of_length same
  · -- The run goes on behind the word.
    obtain ⟨rest, rfl⟩ :=
      List.prefix_of_prefix_length_le (List.prefix_append word text) here (Nat.le_of_lt long)
    rw [List.prefix_append_right_inj] at here
    obtain ⟨behind, rfl⟩ := here
    cases rest with
    | nil => simp at long
    | cons first rest =>
      have separator : isSeparator first = true := stops first rfl
      rw [isRun.inside first (by simp)] at separator
      cases separator

theorem isRun_append_of_word (nonempty : word ≠ []) (inside : ∀ c ∈ word, isSeparator c = false)
    (stops : ∀ c ∈ text.head?, isSeparator c) :
    IsRun isSeparator (word ++ text) start run ↔
      (start = 0 ∧ run = word) ∨
        ∃ place, start = word.length + place ∧ IsRun isSeparator text place run := by
  constructor
  · intro isRun
    rcases Nat.eq_zero_or_pos start with rfl | later
    · exact .inl ⟨rfl, isRun.eq_word inside stops⟩
    · right
      by_cases within : start ≤ word.length
      · -- The run would begin behind a character of the word.
        have left := isRun.left
        rw [List.take_append_of_le_length within] at left
        have some : (word.take start).getLast? ≠ none := by
          simp [nonempty, Nat.ne_of_gt later]
        obtain ⟨last, named⟩ := Option.ne_none_iff_exists'.mp some
        have member : last ∈ word := List.mem_of_mem_take (List.mem_of_getLast? named)
        have separator : isSeparator last = true := left last named
        rw [inside last member] at separator
        cases separator
      · obtain ⟨place, rfl⟩ := Nat.exists_eq_add_of_le (Nat.le_of_not_le within)
        refine ⟨place, rfl, isRun.nonempty, isRun.inside, ?_, ?_, ?_⟩
        · have here := isRun.here
          rwa [List.drop_length_add_append] at here
        · intro c last
          refine isRun.left c ?_
          rw [List.take_length_add_append, List.getLast?_append, Option.mem_def.mp last]
          rfl
        · have right := isRun.right
          rwa [Nat.add_assoc, List.drop_length_add_append] at right
  · rintro (⟨rfl, rfl⟩ | ⟨place, rfl, isRun⟩)
    · exact ⟨nonempty, inside, List.prefix_append .., by simp, by simpa using stops⟩
    · have later : place ≠ 0 := by
        rintro rfl
        obtain ⟨first, text, rfl⟩ : ∃ first rest, text = first :: rest := by
          cases text with
          | nil => exact absurd isRun not_isRun_nil
          | cons first rest => exact ⟨first, rest, rfl⟩
        have separator : isSeparator first = true := stops first rfl
        rw [isRun.head first rfl] at separator
        cases separator
      refine ⟨isRun.nonempty, isRun.inside, ?_, ?_, ?_⟩
      · rw [List.drop_length_add_append]
        exact isRun.here
      · intro c last
        rw [List.take_length_add_append, List.getLast?_append] at last
        cases before : (text.take place).getLast? with
        | none =>
          have nothing : text = [] := by simpa [later] using before
          subst nothing
          exact absurd isRun not_isRun_nil
        | some e =>
          rw [before] at last
          exact Option.some.inj last ▸ isRun.left e before
      · rw [Nat.add_assoc, List.drop_length_add_append]
        exact isRun.right

/-- The words of a text are its longest runs, in the order of the places where they begin. -/
theorem Worded.exists_runs (worded : Worded isSeparator text words) :
    ∃ runs : List (Nat × List Char), runs.map Prod.snd = words ∧
      runs.Pairwise (fun first second => first.1 < second.1) ∧
      ∀ start run, (start, run) ∈ runs ↔ IsRun isSeparator text start run := by
  induction worded with
  | @nil gap outside =>
    refine ⟨[], rfl, .nil, fun start run => ?_⟩
    have nowhere : IsRun isSeparator (gap ++ []) start run ↔
        ∃ place, start = gap.length + place ∧ IsRun isSeparator [] place run :=
      isRun_append_of_separators outside
    rw [List.append_nil] at nowhere
    simp [nowhere, not_isRun_nil]
  | @cons gap word text words outside nonempty inside stops _ ih =>
    obtain ⟨runs, rfl, sorted, all⟩ := ih
    let behind (run : Nat × List Char) := (gap.length + (word.length + run.1), run.2)
    refine ⟨(gap.length, word) :: runs.map behind, ?_, ?_, fun start run => ?_⟩
    · simp [behind, Function.comp_def]
    · have long : 0 < word.length := List.length_pos_iff.mpr nonempty
      refine List.pairwise_cons.mpr ⟨?_, List.pairwise_map.mpr (sorted.imp ?_)⟩
      · intro run member
        obtain ⟨earlier, -, rfl⟩ := List.mem_map.mp member
        simp only [behind]
        omega
      · intro first second before
        simp only [behind]
        omega
    · rw [List.append_assoc, isRun_append_of_separators outside]
      simp only [isRun_append_of_word nonempty inside stops, ← all]
      simp only [List.mem_cons, Prod.mk.injEq, List.mem_map, Prod.exists, behind]
      grind

end WebSocket.Text

namespace WebSocket.Request

open Text

/-- A text of nothing but commas, spaces and tabs. -/
def IsGap (gap : String) : Prop := ∀ c ∈ gap.toList, isListSeparator c = true

/-- What can stand in a list of subprotocols as one of them. -/
def IsToken (token : String) : Prop :=
  token ≠ "" ∧ ∀ c ∈ token.toList, isListSeparator c = false

instance (gap : String) : Decidable (IsGap gap) :=
  decidable_of_iff (gap.toList.all isListSeparator) List.all_eq_true

instance (token : String) : Decidable (IsToken token) :=
  decidable_of_iff (token ≠ "" ∧ token.toList.all (!isListSeparator ·))
    (and_congr_right fun _ => by simp)

/-- A list of tokens as it is written: what stands in front of it, and then each token with what
stands behind it. -/
def spell (front : String) : List (String × String) → String
  | [] => front
  | (token, gap) :: parts => front ++ token ++ spell gap parts

variable {front : String} {parts : List (String × String)}

/-- Only behind the last token there may be no separator. -/
theorem head_spell {gap : String} (isGap : IsGap gap) (further : parts ≠ [] → gap ≠ "") :
    ∀ c ∈ (spell gap parts).toList.head?, isListSeparator c = true := by
  intro c first
  cases parts with
  | nil => exact isGap c (List.mem_of_mem_head? first)
  | cons part parts =>
    have separates : gap.toList ≠ [] := by simpa using further (List.cons_ne_nil part parts)
    obtain ⟨d, rest, shape⟩ := List.exists_cons_of_ne_nil separates
    have same : d = c := by
      rw [spell, String.toList_append, String.toList_append, shape] at first
      exact Option.some.inj first
    exact same ▸ isGap d (by simp [shape])

theorem worded_spell (before : IsGap front)
    (whole : ∀ part ∈ parts, IsToken part.1 ∧ IsGap part.2)
    (between : ∀ part ∈ parts.dropLast, part.2 ≠ "") :
    Worded isListSeparator (spell front parts).toList (parts.map (·.1.toList)) := by
  induction parts generalizing front with
  | nil => exact .nil before
  | cons part parts ih =>
    obtain ⟨token, gap⟩ := part
    obtain ⟨⟨⟨nonempty, inside⟩, behind⟩, whole⟩ := List.forall_mem_cons.mp whole
    have split (more : parts ≠ []) : gap ≠ "" ∧ ∀ part ∈ parts.dropLast, part.2 ≠ "" := by
      rw [List.dropLast_cons_of_ne_nil more] at between
      exact List.forall_mem_cons.mp between
    have later : ∀ part ∈ parts.dropLast, part.2 ≠ "" := by
      cases parts with
      | nil => exact List.forall_mem_nil _
      | cons next parts => exact (split (List.cons_ne_nil next parts)).2
    rw [spell, String.toList_append, String.toList_append]
    exact .cons before (by simpa using nonempty) inside
      (head_spell behind fun more => (split more).1) (ih behind whole later)

/-- **A list of subprotocols is read back as its tokens.** This is so for any gaps between and
around them, of which only the outer two may be empty. Of any other text the tokens are the longest
runs of characters that are no separators, in the order of the places where they begin, and the
tokens of two texts that are joined by a comma are those of both. -/
theorem parseProtocols_spell :
    (∀ front parts, IsGap front → (∀ part ∈ parts, IsToken part.1 ∧ IsGap part.2) →
        (∀ part ∈ parts.dropLast, part.2 ≠ "") →
        parseProtocols (spell front parts) = parts.map Prod.fst) ∧
      (∀ value, (∀ token ∈ parseProtocols value, IsToken token) ∧
        ∃ runs : List (Nat × List Char),
          runs.map (fun run => String.ofList run.2) = parseProtocols value ∧
          runs.Pairwise (fun first second => first.1 < second.1) ∧
          ∀ start run, (start, run) ∈ runs ↔ IsRun isListSeparator value.toList start run) ∧
      ∀ first second,
        parseProtocols (first ++ "," ++ second) =
          parseProtocols first ++ parseProtocols second := by
  refine ⟨fun front parts before whole between => ?_, fun value => ?_, fun first second => ?_⟩
  · rw [parseProtocols, tokens_eq_iff.mpr (worded_spell before whole between), List.map_map]
    exact List.map_congr_left fun part _ => String.ofList_toList
  · obtain ⟨runs, words, sorted, all⟩ := (worded_tokens isListSeparator value.toList).exists_runs
    have same : runs.map (fun run => String.ofList run.2) = parseProtocols value := by
      rw [parseProtocols, ← words, List.map_map]
      rfl
    refine ⟨?_, runs, same, sorted, all⟩
    rw [← same]
    intro token member
    obtain ⟨⟨start, run⟩, found, rfl⟩ := List.mem_map.mp member
    have isRun := (all start run).mp found
    exact ⟨by simpa using isRun.nonempty, by simpa using isRun.inside⟩
  · have joined : (first ++ "," ++ second).toList = first.toList ++ ',' :: second.toList := by simp
    rw [parseProtocols, joined, tokens_append_cons rfl, List.map_append]
    rfl

/-- Two tokens with gaps of each kind, and a list that ends in a comma. -/
theorem parseProtocols_spell_tabs :
    let parts := [("chat", " ,\t"), ("v2.chat", "")]
    IsGap ", " ∧ (∀ part ∈ parts, IsToken part.1 ∧ IsGap part.2) ∧
      (∀ part ∈ parts.dropLast, part.2 ≠ "") ∧
      parseProtocols (spell ", " parts) = ["chat", "v2.chat"] ∧
      parseProtocols (", a,," ++ "," ++ "b ") = parseProtocols ", a,," ++ parseProtocols "b " := by
  intro parts
  have before : IsGap ", " := by decide
  have whole : ∀ part ∈ parts, IsToken part.1 ∧ IsGap part.2 := by decide
  have between : ∀ part ∈ parts.dropLast, part.2 ≠ "" := by decide
  obtain ⟨reads, -, joins⟩ := parseProtocols_spell
  exact ⟨before, whole, between, reads _ parts before whole between, joins _ _⟩

end WebSocket.Request
