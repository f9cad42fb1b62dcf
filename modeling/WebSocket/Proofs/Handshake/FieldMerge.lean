import WebSocket.Proofs.Handshake.ResponseFields
import WebSocket.Proofs.Handshake.ResponseHead

/-!
# How fields are merged

Fields are put to those that stand there already one after the other. What comes of it can be
told at once: the given fields keep their places, behind them stands each new name where it first
came and as it was spelled there, and each field has the last value that was set for its name. No
two fields have one name (`foldl_putEntry`).

A list in which each field is set anew, behind all others, keeps the last field of each name
(`lastOfEach_concat`). Merging such a list gives the same values as merging all that was set, but
the new names stand where they came last (`merged_lastOfEach`).
-/

namespace WebSocket

/-- Whether two fields have one name, whatever its case. -/
def sameName (a b : String × String) : Bool := Text.equalsIgnoringCase a.1 b.1

/-- No two of these fields have one name. -/
def Distinct (fields : List (String × String)) : Prop :=
  fields.Pairwise fun a b => sameName a b = false

/-- The field with the last value that `extra` sets for its name, or else with its own. -/
def withLast (extra : List (String × String)) (field : String × String) : String × String :=
  (field.1, (valuesOf field.1 extra).getLast?.getD field.2)

/-- The first field of each name in `extra` that is none of the given ones. -/
def newcomers (given extra : List (String × String)) : List (String × String) :=
  (extra.filter fun field => !given.any (sameName field)).eraseDupsBy sameName

/-- The given fields and the new ones, with the values that were set last. -/
def merged (given extra : List (String × String)) : List (String × String) :=
  (given ++ newcomers given extra).map (withLast extra)

variable {entry field a b : String × String} {given extra fields : List (String × String)}

theorem sameName_iff : sameName a b = true ↔ Text.lower a.1 = Text.lower b.1 :=
  Text.equalsIgnoringCase_iff

theorem sameName_refl (a : String × String) : sameName a a = true := sameName_iff.mpr rfl

theorem sameName_comm (a b : String × String) : sameName a b = sameName b a :=
  Bool.eq_iff_iff.mpr (by rw [sameName_iff, sameName_iff, eq_comm])

/-- Only the name counts, and only up to its case. -/
theorem sameName_congr (same : sameName a b = true) (c : String × String) :
    sameName a c = sameName b c := by
  simp only [sameName, Text.equalsIgnoringCase, sameName_iff.mp same]

/-! ## Putting one field -/

/-- The field with the value of the entry if it has its name. -/
def overridden (entry field : String × String) : String × String :=
  if sameName entry field then (field.1, entry.2) else field

theorem overridden_fst (entry field : String × String) : (overridden entry field).1 = field.1 := by
  unfold overridden
  split <;> rfl

theorem overridden_of_same (same : sameName entry field = true) :
    overridden entry field = (field.1, entry.2) := if_pos same

theorem overridden_of_other (other : sameName entry field = false) :
    overridden entry field = field := if_neg (Bool.not_eq_true _ ▸ other)

theorem map_overridden_of_absent (absent : ∀ field ∈ given, sameName entry field = false) :
    given.map (overridden entry) = given :=
  (List.map_congr_left fun field member => overridden_of_other (absent field member)).trans
    (List.map_id given)

/-- Where names differ, one field at most is given another value. -/
theorem putEntry_of_present (distinct : Distinct given) (present : given.any (sameName entry)) :
    Table.putEntry (Text.equalsIgnoringCase entry.1) entry.1 entry.2 given =
      given.map (overridden entry) := by
  induction given with
  | nil => cases present
  | cons field given ih =>
    obtain ⟨others, distinct⟩ := List.pairwise_cons.mp distinct
    rw [List.map_cons, Table.putEntry]
    by_cases here : Text.equalsIgnoringCase entry.1 field.1 = true
    · have absent : ∀ other ∈ given, sameName entry other = false := fun other member =>
        (sameName_congr here other).trans (others other member)
      rw [if_pos here, map_overridden_of_absent absent, overridden_of_same here]
    · have behind : given.any (sameName entry) = true := by
        rw [List.any_cons, Bool.or_eq_true] at present
        exact present.resolve_left here
      rw [if_neg here, ih distinct behind, overridden_of_other (Bool.eq_false_iff.mpr here)]

theorem Distinct.map_overridden (distinct : Distinct given) :
    Distinct (given.map (overridden entry)) := by
  refine List.pairwise_map.mpr (distinct.imp fun {a b} other => ?_)
  rwa [sameName, overridden_fst, overridden_fst]

theorem Distinct.concat (distinct : Distinct given)
    (absent : ∀ field ∈ given, sameName entry field = false) : Distinct (given ++ [entry]) := by
  refine List.pairwise_append.mpr ⟨distinct, List.pairwise_singleton .., ?_⟩
  rintro field member _ (_ | ⟨_, ⟨⟩⟩)
  rw [sameName_comm]
  exact absent field member

/-! ## Putting all of them -/

/-- An entry counts like a value of the field itself, and later ones count more. -/
theorem withLast_cons (entry : String × String) (extra : List (String × String))
    (field : String × String) :
    withLast (entry :: extra) field = withLast extra (overridden entry field) := by
  have named : Text.equalsIgnoringCase field.1 entry.1 = sameName entry field :=
    sameName_comm field entry
  simp only [withLast, overridden_fst, valuesOf_cons, named]
  cases same : sameName entry field with
  | true => rw [if_pos rfl, overridden_of_same same, List.getLast?_cons, Option.getD_some]
  | false => rw [if_neg Bool.false_ne_true, overridden_of_other same]

theorem map_withLast_cons (entry : String × String) (extra given : List (String × String)) :
    given.map (withLast (entry :: extra)) =
      (given.map (overridden entry)).map (withLast extra) := by
  rw [List.map_map]
  exact List.map_congr_left fun field _ => withLast_cons entry extra field

theorem eraseDupsBy_sublist {α : Type} (same : α → α → Bool) (list : List α) :
    (list.eraseDupsBy same).Sublist list := by
  induction length : list.length using Nat.strongRecOn generalizing list with
  | ind _ ih =>
    subst length
    cases list with
    | nil => exact .slnil
    | cons first list =>
      rw [List.eraseDupsBy_cons]
      have shorter := Nat.lt_succ_of_le (List.length_filter_le (same · first == false) list)
      exact .cons_cons first ((ih _ shorter _ rfl).trans List.filter_sublist)

/-- No newcomer has the name of a given field. -/
theorem absent_of_mem_newcomers (present : given.any (sameName entry) = true) :
    ∀ field ∈ newcomers given extra, sameName entry field = false := by
  intro field member
  have new := (List.mem_filter.mp ((eraseDupsBy_sublist ..).subset member)).2
  cases same : sameName entry field with
  | false => rfl
  | true =>
    have one : sameName field = sameName entry :=
      funext fun other => (sameName_congr same other).symm
    rw [one, present] at new
    cases new

theorem newcomers_cons_of_present (present : given.any (sameName entry) = true) :
    newcomers given (entry :: extra) = newcomers given extra := by
  rw [newcomers, List.filter_cons_of_neg (by simp [present]), newcomers]

theorem newcomers_cons_of_absent (absent : given.any (sameName entry) = false) :
    newcomers given (entry :: extra) = entry :: newcomers (given ++ [entry]) extra := by
  rw [newcomers, List.filter_cons_of_pos (by simp [absent]), List.eraseDupsBy_cons,
    List.filter_filter, newcomers]
  congr 3
  funext field
  rw [List.any_append, List.any_cons, List.any_nil, Bool.or_false]
  cases given.any (sameName field) <;> cases sameName field entry <;> rfl

theorem newcomers_map_overridden (given extra : List (String × String)) :
    newcomers (given.map (overridden entry)) extra = newcomers given extra := by
  have names (field : String × String) :
      (given.map (overridden entry)).any (sameName field) = given.any (sameName field) := by
    rw [List.any_map]
    exact List.any_congr rfl fun other => by
      rw [Function.comp_apply, sameName, overridden_fst, sameName]
  simp only [newcomers, names]

/-- Putting the fields one after the other comes to what is told at once, and no two of the
fields have one name. -/
theorem foldl_putEntry (distinct : Distinct given) (extra : List (String × String)) :
    extra.foldl (fun fields entry =>
        Table.putEntry (Text.equalsIgnoringCase entry.1) entry.1 entry.2 fields) given =
      merged given extra ∧ Distinct (merged given extra) := by
  induction extra generalizing given with
  | nil =>
    have same : merged given [] = given := by
      rw [merged, newcomers, List.filter_nil, List.eraseDupsBy_nil, List.append_nil]
      exact List.map_id given
    exact ⟨same.symm, same.symm ▸ distinct⟩
  | cons entry extra ih =>
    rw [List.foldl_cons]
    cases present : given.any (sameName entry) with
    | true =>
      have same : merged given (entry :: extra) = merged (given.map (overridden entry)) extra := by
        rw [merged, map_withLast_cons, newcomers_cons_of_present present, List.map_append,
          map_overridden_of_absent (absent_of_mem_newcomers present), merged,
          newcomers_map_overridden]
      rw [putEntry_of_present distinct present, same]
      exact ih distinct.map_overridden
    | false =>
      have absent : ∀ field ∈ given, sameName entry field = false := by
        simpa using present
      have among : (given ++ [entry]).any (sameName entry) = true := by
        simp [sameName_refl]
      have itself : overridden entry entry = entry := overridden_of_same (sameName_refl entry)
      have same : merged given (entry :: extra) = merged (given ++ [entry]) extra := by
        rw [merged, map_withLast_cons, newcomers_cons_of_absent present, List.map_append,
          List.map_cons, itself, map_overridden_of_absent absent,
          map_overridden_of_absent (absent_of_mem_newcomers among), merged, List.append_assoc,
          List.singleton_append]
      rw [Table.putEntry_of_absent absent, same]
      exact ih (distinct.concat absent)

/-! ## Setting fields anew -/

/-- The last field of each name, in the order in which they stand. -/
def lastOfEach : List (String × String) → List (String × String)
  | [] => []
  | field :: fields =>
    if fields.any (sameName field) then lastOfEach fields else field :: lastOfEach fields

theorem lastOfEach_sublist (fields : List (String × String)) :
    (lastOfEach fields).Sublist fields := by
  induction fields with
  | nil => exact .slnil
  | cons field fields ih =>
    rw [lastOfEach]
    split
    · exact .cons field ih
    · exact .cons_cons field ih

theorem distinct_lastOfEach (fields : List (String × String)) : Distinct (lastOfEach fields) := by
  induction fields with
  | nil => exact .nil
  | cons field fields ih =>
    rw [lastOfEach]
    split
    · exact ih
    · next further =>
      refine List.pairwise_cons.mpr ⟨fun other member => ?_, ih⟩
      have behind := (lastOfEach_sublist fields).subset member
      exact Bool.eq_false_iff.mpr fun same => further (List.any_eq_true.mpr ⟨other, behind, same⟩)

/-- Setting one more field drops the one of its name. -/
theorem lastOfEach_concat (fields : List (String × String)) (entry : String × String) :
    lastOfEach (fields ++ [entry]) =
      (lastOfEach fields).filter (fun field => !sameName field entry) ++ [entry] := by
  induction fields with
  | nil => rfl
  | cons field fields ih =>
    rw [List.cons_append, lastOfEach, lastOfEach, List.any_append, ih]
    cases later : fields.any (sameName field) with
    | true => simp
    | false => cases same : sameName field entry <;> simp [same]

theorem valuesOf_eq_nil_iff {name : String} :
    valuesOf name fields = [] ↔ ∀ field ∈ fields, Text.equalsIgnoringCase name field.1 = false := by
  rw [valuesOf, List.map_eq_nil_iff, List.filter_eq_nil_iff]
  simp only [Bool.not_eq_true]

theorem valuesOf_congr {name other : String} (same : Text.equalsIgnoringCase name other = true) :
    valuesOf name = valuesOf other := by
  funext fields
  simp only [valuesOf, Text.equalsIgnoringCase, Text.equalsIgnoringCase_iff.mp same]

/-- Of the values of a name the last one is left. -/
theorem valuesOf_lastOfEach (name : String) (fields : List (String × String)) :
    valuesOf name (lastOfEach fields) = (valuesOf name fields).getLast?.toList := by
  induction fields with
  | nil => rfl
  | cons field fields ih =>
    rw [lastOfEach, valuesOf_cons]
    cases later : fields.any (sameName field) with
    | true =>
      rw [if_pos rfl, ih]
      split
      · next named =>
        have some : valuesOf name fields ≠ [] := by
          rw [valuesOf_congr named, Ne, valuesOf_eq_nil_iff]
          obtain ⟨other, member, same⟩ := List.any_eq_true.mp later
          exact fun absent => Bool.eq_false_iff.mp (absent other member) same
        rw [List.getLast?_cons, List.getLast?_eq_some_getLast some, Option.getD_some]
      · rfl
    | false =>
      rw [if_neg Bool.false_ne_true, valuesOf_cons, ih]
      split
      · next named =>
        have none : valuesOf name fields = [] := by
          rw [valuesOf_congr named, valuesOf_eq_nil_iff]
          simpa [sameName] using later
        rw [none]
        rfl
      · rfl

theorem getLast?_valuesOf_lastOfEach (name : String) (fields : List (String × String)) :
    (valuesOf name (lastOfEach fields)).getLast? = (valuesOf name fields).getLast? := by
  rw [valuesOf_lastOfEach]
  cases (valuesOf name fields).getLast? <;> rfl

theorem withLast_lastOfEach (set : List (String × String)) :
    withLast (lastOfEach set) = withLast set := by
  funext field
  rw [withLast, getLast?_valuesOf_lastOfEach, withLast]

theorem Distinct.eraseDupsBy (distinct : Distinct fields) :
    fields.eraseDupsBy sameName = fields := by
  induction fields with
  | nil => rfl
  | cons field fields ih =>
    obtain ⟨others, distinct⟩ := List.pairwise_cons.mp distinct
    have kept : fields.filter (fun other => decide (sameName other field = false)) = fields :=
      List.filter_eq_self.mpr fun other member =>
        decide_eq_true ((sameName_comm other field).trans (others other member))
    rw [List.eraseDupsBy_cons, kept, ih distinct]

theorem Distinct.withLast_of_mem (distinct : Distinct fields) (member : field ∈ fields) :
    withLast fields field = field := by
  obtain ⟨front, back, rfl⟩ := List.append_of_mem member
  have behind : ∀ other ∈ back, Text.equalsIgnoringCase field.1 other.1 = false :=
    (List.pairwise_cons.mp (List.pairwise_append.mp distinct).2.1).1
  have itself : Text.equalsIgnoringCase field.1 field.1 = true := sameName_refl field
  have last : (valuesOf field.1 (front ++ field :: back)).getLast? = some field.2 := by
    rw [valuesOf_append, valuesOf_cons, valuesOf_eq_nil_iff.mpr behind, if_pos itself,
      List.getLast?_concat]
  rw [withLast, last, Option.getD_some]

/-- Merging what is left of the fields that were set: the given fields get the values that were
set last, and behind them stand those of other names, each where and as it was set last. -/
theorem merged_lastOfEach (given set : List (String × String)) :
    merged given (lastOfEach set) =
      given.map (withLast set) ++
        (lastOfEach set).filter fun field => !given.any (sameName field) := by
  have distinct := distinct_lastOfEach set
  have others : Distinct ((lastOfEach set).filter fun field => !given.any (sameName field)) :=
    distinct.sublist List.filter_sublist
  have kept : ((lastOfEach set).filter fun field => !given.any (sameName field)).map
      (withLast (lastOfEach set)) =
        (lastOfEach set).filter fun field => !given.any (sameName field) :=
    (List.map_congr_left fun field member =>
      distinct.withLast_of_mem (List.mem_filter.mp member).1).trans (List.map_id _)
  rw [merged, newcomers, others.eraseDupsBy, List.map_append, kept, withLast_lastOfEach]

namespace Response

theorem distinct_of_names (different : (fields.map (·.1)).Pairwise fun a b =>
    Text.equalsIgnoringCase a b = false) : Distinct fields := by
  rw [List.pairwise_map] at different
  exact different

/-- The names of the built-in fields differ. -/
theorem distinct_builtIn (response : Response) : Distinct response.builtIn := by
  have different : ["Upgrade", "Connection", "Sec-WebSocket-Accept",
      "Sec-WebSocket-Protocol"].Pairwise fun a b => Text.equalsIgnoringCase a b = false := by
    decide +kernel
  refine distinct_of_names ?_
  unfold builtIn
  cases response.protocol with
  | some name => exact different
  | none =>
    have first := different.sublist (List.take_sublist 3 _)
    exact first

/-- The head has the built-in fields and one for each further name, with the last values. -/
theorem fields_eq_merged (response : Response) :
    response.fields = merged response.builtIn response.extra :=
  (foldl_putEntry response.distinct_builtIn response.extra).1

theorem distinct_fields (response : Response) : Distinct response.fields :=
  response.fields_eq_merged ▸ (foldl_putEntry response.distinct_builtIn response.extra).2

end Response

end WebSocket
