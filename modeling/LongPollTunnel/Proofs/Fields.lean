import Mathlib.Data.List.Nodup
import Mathlib.Tactic.SplitIfs
import LongPollTunnel.Proofs.Numbers
import LongPollTunnel.Proofs.Scripts

/-! # What the fields of a form make

A form is a list of fields, in which a name may come any number of times. The fields are taken up
one by one, so what a setting holds is told by the values of its name alone: the last of them, or
all of them for the formats, which add up. Main statement: which of the forms are refused and with
what, what the settings of any other form hold, and that fields of different names may change
places.
-/

namespace LongPollTunnel.Settings

/-! ## Values by name -/

/-- The values that a name is given, in their order. -/
def valuesOf (fields : List (String × String)) (name : String) : List String :=
  (fields.filter (·.1 = name)).map (·.2)

/-- The value that a name is given last. -/
def lastOf (fields : List (String × String)) (name : String) : Option String :=
  (valuesOf fields name).getLast?

theorem valuesOf_append (front rest : List (String × String)) (name : String) :
    valuesOf (front ++ rest) name = valuesOf front name ++ valuesOf rest name := by
  rw [valuesOf, valuesOf, valuesOf, List.filter_append, List.map_append]

theorem valuesOf_cons (name value : String) (rest : List (String × String)) (other : String) :
    valuesOf ((name, value) :: rest) other =
      (if name = other then [value] else []) ++ valuesOf rest other := by
  unfold valuesOf
  rw [List.filter_cons]
  split_ifs <;> simp_all

theorem valuesOf_snoc (seen : List (String × String)) (name value other : String) :
    valuesOf (seen ++ [(name, value)]) other =
      valuesOf seen other ++ if name = other then [value] else [] := by
  rw [valuesOf_append, valuesOf_cons]
  exact congrArg _ (List.append_nil _)

/-- The last field wins. -/
theorem lastOf_snoc (seen : List (String × String)) (name value other : String) :
    lastOf (seen ++ [(name, value)]) other =
      if name = other then some value else lastOf seen other := by
  unfold lastOf
  rw [valuesOf_snoc]
  split_ifs
  · exact List.getLast?_concat
  · rw [List.append_nil]

/-- Nothing is the last where nothing is. -/
theorem lastOf_eq_none_iff {fields : List (String × String)} {name : String} :
    lastOf fields name = none ↔ ∀ field ∈ fields, field.1 ≠ name := by
  simp [lastOf, valuesOf]

/-- Fields of different names may change places: no name is given other values for it. -/
theorem valuesOf_swap {first second : String × String} (hne : first.1 ≠ second.1)
    (front rest : List (String × String)) (name : String) :
    valuesOf (front ++ second :: first :: rest) name =
      valuesOf (front ++ first :: second :: rest) name := by
  obtain ⟨firstName, firstValue⟩ := first
  obtain ⟨secondName, secondValue⟩ := second
  simp only [valuesOf_append, valuesOf_cons]
  congr 1
  by_cases hfirst : firstName = name
  · have hsecond : secondName ≠ name := fun h => hne (hfirst.trans h.symm)
    rw [if_pos hfirst, if_neg hsecond, List.nil_append, List.nil_append]
  · rw [if_neg hfirst, List.nil_append, List.nil_append]

/-! ## Parameters -/

section Parameters

variable {parameters : List (String × String)}

/-- A parameter that is set keeps its place, and a new one comes last. -/
theorem map_fst_setParameter (name value : String) (parameters : List (String × String)) :
    (setParameter name value parameters).map (·.1) =
      if name ∈ parameters.map (·.1) then parameters.map (·.1)
      else parameters.map (·.1) ++ [name] := by
  induction parameters with
  | nil => rfl
  | cons first rest ih =>
      obtain ⟨other, old⟩ := first
      unfold setParameter
      split
      next heq => simp [heq]
      next hne =>
        rw [List.map_cons, ih]
        simp only [List.map_cons, List.mem_cons, Ne.symm hne, false_or]
        split_ifs <;> rfl

/-- No name comes twice among the parameters, however they are set. -/
theorem nodup_setParameter (name value : String) (hnodup : (parameters.map (·.1)).Nodup) :
    ((setParameter name value parameters).map (·.1)).Nodup := by
  rw [map_fst_setParameter]
  split
  · exact hnodup
  next hname =>
    refine List.nodup_append.mpr ⟨hnodup, List.pairwise_singleton _ name, ?_⟩
    rintro other hother _ hmem rfl
    exact hname (List.mem_singleton.mp hmem ▸ hother)

theorem mem_iff_lookup (hnodup : (parameters.map (·.1)).Nodup) {name value : String} :
    (name, value) ∈ parameters ↔ lookup parameters name = some value := by
  induction parameters with
  | nil => simp [lookup]
  | cons first rest ih =>
      obtain ⟨other, old⟩ := first
      rw [List.map_cons, List.nodup_cons] at hnodup
      rw [List.mem_cons, ih hnodup.2]
      by_cases heq : other = name
      · subst heq
        have habsent : lookup rest other = none := by
          simp only [lookup, Option.map_eq_none_iff, List.find?_eq_none, decide_eq_true_eq]
          intro field hfield heq
          exact hnodup.1 (List.mem_map.mpr ⟨field, hfield, heq⟩)
        rw [habsent]
        simp [lookup, eq_comm]
      · simp [lookup, heq, Ne.symm heq]

end Parameters

/-! ## One field -/

/-- The names of the settings that are numbers. -/
def sizeNames : List String :=
  ["width", "height", "dpi"]

/-- A field that is to be a number within 32 bits and is none. -/
def IsInvalid (field : String × String) : Prop :=
  field.1 ∈ sizeNames ∧ ∀ n, Unsigned.Denotes field.2.toList n → Unsigned.max32 < n

variable {s next : Settings} {name value : String} {fields : List (String × String)}

/-- A number is read if it is denoted and fits. -/
theorem readNumber_eq_ok_iff {n : Nat} :
    readNumber name value = .ok n ↔
      Unsigned.Denotes value.toList n ∧ n ≤ Unsigned.max32 := by
  rw [← Unsigned.read_eq_ok_iff]
  unfold readNumber
  split
  next number hread => rw [hread, Except.ok.injEq, Except.ok.injEq]
  next hread => rw [hread]; exact iff_of_false nofun nofun

theorem readNumber_of_isInvalid (hinvalid : IsInvalid (name, value)) :
    readNumber name value = .error (.invalidParameter name value) := by
  obtain ⟨fault, hread⟩ := Unsigned.exists_read_error_iff.mpr hinvalid.2
  rw [readNumber, hread]

theorem exists_readNumber (hname : name ∈ sizeNames) (hvalid : ¬ IsInvalid (name, value)) :
    ∃ n, readNumber name value = .ok n := by
  cases hread : Unsigned.read Unsigned.max32 value.toList with
  | ok n => exact ⟨n, by rw [readNumber, hread]⟩
  | error fault =>
      exact absurd ⟨hname, Unsigned.exists_read_error_iff.mp ⟨fault, hread⟩⟩ hvalid

/-- What a field makes of settings: its own setting is set, or added to, and no other. -/
structure Takes (s : Settings) (name value : String) (next : Settings) : Prop where
  protocol : next.protocol = if name = "protocol" then some value else s.protocol
  connectionId : next.connectionId = if name = "connection_id" then some value else s.connectionId
  width : if name = "width" then Unsigned.Denotes value.toList next.width
    else next.width = s.width
  height : if name = "height" then Unsigned.Denotes value.toList next.height
    else next.height = s.height
  dpi : if name = "dpi" then Unsigned.Denotes value.toList next.dpi else next.dpi = s.dpi
  audio : next.audio = s.audio ++ if name = "audio" then [value] else []
  video : next.video = s.video ++ if name = "video" then [value] else []
  image : next.image = s.image ++ if name = "image" then [value] else []
  timezone : next.timezone = if name = "timezone" then some value else s.timezone
  parameters : next.parameters =
    if name ∈ ownNames then s.parameters else setParameter name value s.parameters

theorem exists_of_number {set : Nat → Settings}
    (hread : (readNumber name value).map set = .ok next) :
    ∃ n, Unsigned.Denotes value.toList n ∧ next = set n := by
  cases hnumber : readNumber name value with
  | error refusal =>
      rw [hnumber] at hread
      cases hread
  | ok n =>
      rw [hnumber] at hread
      cases hread
      exact ⟨n, (readNumber_eq_ok_iff.mp hnumber).1, rfl⟩

/-- A field that is taken changes its own setting, and no other. -/
theorem takes_addField (hadd : s.addField (name, value) = .ok next) :
    s.Takes name value next := by
  unfold addField at hadd
  dsimp only at hadd
  split_ifs at hadd with hprotocol hid hwidth hheight hdpi haudio hvideo himage hzone
  · cases hadd
    subst hprotocol
    constructor <;> simp [ownNames]
  · cases hadd
    subst hid
    constructor <;> simp [ownNames]
  · obtain ⟨n, hn, rfl⟩ := exists_of_number hadd
    subst hwidth
    constructor <;> simp [ownNames, hn]
  · obtain ⟨n, hn, rfl⟩ := exists_of_number hadd
    subst hheight
    constructor <;> simp [ownNames, hn]
  · obtain ⟨n, hn, rfl⟩ := exists_of_number hadd
    subst hdpi
    constructor <;> simp [ownNames, hn]
  · cases hadd
    subst haudio
    constructor <;> simp [ownNames]
  · cases hadd
    subst hvideo
    constructor <;> simp [ownNames]
  · cases hadd
    subst himage
    constructor <;> simp [ownNames]
  · cases hadd
    subst hzone
    constructor <;> simp [ownNames]
  · cases hadd
    constructor <;>
      simp [ownNames, hprotocol, hid, hwidth, hheight, hdpi, haudio, hvideo, himage, hzone]

/-- A size that is no number is refused with its name and value. -/
theorem addField_of_isInvalid (hinvalid : IsInvalid (name, value)) :
    s.addField (name, value) = .error (.invalidParameter name value) := by
  have hread := readNumber_of_isInvalid hinvalid
  have hname := hinvalid.1
  simp only [sizeNames, List.mem_cons, List.not_mem_nil, or_false] at hname
  rcases hname with rfl | rfl | rfl <;> simp [addField, hread, Except.map]

/-- Everything else is taken. -/
theorem exists_addField (hvalid : ¬ IsInvalid (name, value)) :
    ∃ next, s.addField (name, value) = .ok next := by
  by_cases hname : name ∈ sizeNames
  · obtain ⟨n, hn⟩ := exists_readNumber hname hvalid
    simp only [sizeNames, List.mem_cons, List.not_mem_nil, or_false] at hname
    rcases hname with rfl | rfl | rfl <;> simp [addField, hn, Except.map]
  · simp only [sizeNames, List.mem_cons, List.not_mem_nil, or_false, not_or] at hname
    obtain ⟨hwidth, hheight, hdpi⟩ := hname
    unfold addField
    simp only [if_neg hwidth, if_neg hheight, if_neg hdpi]
    split_ifs <;> exact ⟨_, rfl⟩

/-! ## All fields -/

/-- A number is the default unless its name is given, and else what its last value denotes. -/
def IsSize (last : Option String) (default n : Nat) : Prop :=
  match last with
  | none => n = default
  | some value => Unsigned.Denotes value.toList n

theorem IsSize.unique {last : Option String} {default n m : Nat} (hn : IsSize last default n)
    (hm : IsSize last default m) : n = m := by
  cases last with
  | none => exact hn.trans hm.symm
  | some value => exact Unsigned.Denotes.unique hn hm

/-- What settings hold when these fields have been taken up. -/
structure Collects (fields : List (String × String)) (s : Settings) : Prop where
  protocol : s.protocol = lastOf fields "protocol"
  connectionId : s.connectionId = lastOf fields "connection_id"
  width : IsSize (lastOf fields "width") 1024 s.width
  height : IsSize (lastOf fields "height") 768 s.height
  dpi : IsSize (lastOf fields "dpi") 96 s.dpi
  audio : s.audio = valuesOf fields "audio"
  video : s.video = valuesOf fields "video"
  image : s.image = valuesOf fields "image"
  timezone : s.timezone = lastOf fields "timezone"
  /-- No parameter comes twice. -/
  nodup : (s.parameters.map (·.1)).Nodup
  parameters : ∀ name value,
    (name, value) ∈ s.parameters ↔ name ∉ ownNames ∧ lastOf fields name = some value

theorem collects_nil : Collects [] {} := by
  constructor <;> simp [lastOf, valuesOf, IsSize]

/-- A size is what was last said of it, or its default. -/
theorem isSize_snoc {seen : List (String × String)} {other : String} {default n m : Nat}
    (hseen : IsSize (lastOf seen other) default n)
    (htakes : if name = other then Unsigned.Denotes value.toList m else m = n) :
    IsSize (lastOf (seen ++ [(name, value)]) other) default m := by
  rw [lastOf_snoc]
  split
  next heq => rwa [if_pos heq] at htakes
  next hne =>
    rw [if_neg hne] at htakes
    rwa [htakes]

/-- What parameters hold once one more field is taken up. -/
theorem mem_parameters_snoc {seen : List (String × String)} (hs : Collects seen s)
    (htakes : s.Takes name value next) (other text : String) :
    (other, text) ∈ next.parameters ↔
      other ∉ ownNames ∧ lastOf (seen ++ [(name, value)]) other = some text := by
  rw [htakes.parameters, lastOf_snoc]
  split
  next hown =>
    rw [hs.parameters]
    by_cases heq : name = other
    · subst heq
      exact iff_of_false (fun h => h.1 hown) (fun h => h.1 hown)
    · rw [if_neg heq]
  next hother =>
    rw [mem_iff_lookup (nodup_setParameter name value hs.nodup)]
    by_cases heq : name = other
    · subst heq
      rw [lookup_setParameter_self, if_pos rfl]
      exact (and_iff_right hother).symm
    · rw [lookup_setParameter_of_ne _ _ (Ne.symm heq), if_neg heq, ← mem_iff_lookup hs.nodup,
        hs.parameters]

/-- One more field keeps the account. -/
theorem Collects.snoc {seen : List (String × String)} (hs : Collects seen s)
    (htakes : s.Takes name value next) : Collects (seen ++ [(name, value)]) next where
  protocol := by rw [htakes.protocol, lastOf_snoc, hs.protocol]
  connectionId := by rw [htakes.connectionId, lastOf_snoc, hs.connectionId]
  width := isSize_snoc hs.width htakes.width
  height := isSize_snoc hs.height htakes.height
  dpi := isSize_snoc hs.dpi htakes.dpi
  audio := by rw [htakes.audio, valuesOf_snoc, hs.audio]
  video := by rw [htakes.video, valuesOf_snoc, hs.video]
  image := by rw [htakes.image, valuesOf_snoc, hs.image]
  timezone := by rw [htakes.timezone, lastOf_snoc, hs.timezone]
  nodup := by
    rw [htakes.parameters]
    split
    · exact hs.nodup
    · exact nodup_setParameter name value hs.nodup
  parameters := mem_parameters_snoc hs htakes

/-- By induction over the fields that follow. -/
theorem Collects.of_addFields {seen : List (String × String)} (hs : Collects seen s)
    (hadd : s.addFields fields = .ok next) : Collects (seen ++ fields) next := by
  induction fields generalizing s seen with
  | nil =>
      cases hadd
      rwa [List.append_nil]
  | cons field rest ih =>
      unfold addFields at hadd
      split at hadd
      next middle hfield =>
        rw [← List.singleton_append, ← List.append_assoc]
        exact ih (hs.snoc (takes_addField hfield)) hadd
      · cases hadd

theorem exists_addFields (hvalid : ∀ field ∈ fields, ¬ IsInvalid field) :
    ∃ next, s.addFields fields = .ok next := by
  induction fields generalizing s with
  | nil => exact ⟨s, rfl⟩
  | cons field rest ih =>
      obtain ⟨hfield, hrest⟩ := List.forall_mem_cons.mp hvalid
      obtain ⟨middle, hmiddle⟩ := exists_addField (s := s) hfield
      obtain ⟨next, hnext⟩ := ih (s := middle) hrest
      exact ⟨next, by rw [addFields, hmiddle]; exact hnext⟩

theorem addFields_append {front rest : List (String × String)}
    (hfront : s.addFields front = .ok next) :
    s.addFields (front ++ rest) = next.addFields rest := by
  induction front generalizing s with
  | nil =>
      cases hfront
      rfl
  | cons field front ih =>
      unfold addFields at hfront
      split at hfront
      next middle hfield =>
        rw [List.cons_append, addFields, hfield]
        exact ih hfront
      · cases hfront

/-- The first field that is no good is the one that is reported. -/
theorem addFields_of_isInvalid {front rest : List (String × String)}
    (hfront : ∀ field ∈ front, ¬ IsInvalid field) (hinvalid : IsInvalid (name, value)) :
    s.addFields (front ++ (name, value) :: rest) = .error (.invalidParameter name value) := by
  obtain ⟨middle, hmiddle⟩ := exists_addFields (s := s) hfront
  rw [addFields_append hmiddle, addFields, addField_of_isInvalid hinvalid]

/-! ## The form -/

/-- A field that tells what to connect to. -/
def IsNamed (field : String × String) : Prop :=
  field.1 = "protocol" ∨ field.1 = "connection_id"

/-- Without a protocol and a connection nothing is named, and the other way round. -/
theorem Collects.isNone_iff (hs : Collects fields s) :
    (s.protocol.isNone && s.connectionId.isNone) = true ↔ ∀ field ∈ fields, ¬ IsNamed field := by
  rw [Bool.and_eq_true, Option.isNone_iff_eq_none, Option.isNone_iff_eq_none, hs.protocol,
    hs.connectionId, lastOf_eq_none_iff, lastOf_eq_none_iff]
  simp only [IsNamed, not_or]
  exact forall₂_and.symm

theorem collects_of_ofFields (hform : ofFields fields = .ok s) :
    Collects fields s ∧ ∃ field ∈ fields, IsNamed field := by
  unfold ofFields at hform
  split at hform
  · cases hform
  next made hfields =>
    have hcollects : Collects fields made := collects_nil.of_addFields hfields
    split at hform
    · cases hform
    next hnone =>
      cases hform
      rw [hcollects.isNone_iff] at hnone
      simp only [not_forall, not_not, exists_prop] at hnone
      exact ⟨hcollects, hnone⟩

/-- A form without a field that is no good is refused only if it does not tell what to connect
to. -/
theorem ofFields_of_valid (hvalid : ∀ field ∈ fields, ¬ IsInvalid field) :
    ((∀ field ∈ fields, ¬ IsNamed field) ∧ ofFields fields = .error .missingProtocol) ∨
      ∃ s, ofFields fields = .ok s := by
  obtain ⟨s, hfields⟩ := exists_addFields (s := {}) hvalid
  have hcollects : Collects fields s := collects_nil.of_addFields hfields
  unfold ofFields
  rw [hfields]
  dsimp only
  split
  next hnone => exact Or.inl ⟨hcollects.isNone_iff.mp hnone, rfl⟩
  · exact Or.inr ⟨s, rfl⟩

/-- Fields that have been taken up were all good. -/
theorem not_isInvalid_of_addFields (hadd : s.addFields fields = .ok next) :
    ∀ field ∈ fields, ¬ IsInvalid field := by
  induction fields generalizing s with
  | nil => nofun
  | cons field rest ih =>
      unfold addFields at hadd
      split at hadd
      next middle hfield =>
        refine List.forall_mem_cons.mpr ⟨fun hinvalid => ?_, ih hadd⟩
        rw [addField_of_isInvalid hinvalid] at hfield
        cases hfield
      · cases hadd

theorem not_isInvalid_of_ofFields (hform : ofFields fields = .ok s) :
    ∀ field ∈ fields, ¬ IsInvalid field := by
  unfold ofFields at hform
  split at hform
  · cases hform
  next hfields => exact not_isInvalid_of_addFields hfields

/-- The same settings, with the same value for each name. -/
structure Same (s other : Settings) : Prop where
  protocol : other.protocol = s.protocol
  connectionId : other.connectionId = s.connectionId
  width : other.width = s.width
  height : other.height = s.height
  dpi : other.dpi = s.dpi
  audio : other.audio = s.audio
  video : other.video = s.video
  image : other.image = s.image
  timezone : other.timezone = s.timezone
  parameters : other.parameters.Perm s.parameters
  parameter? : ∀ name, other.parameter? name = s.parameter? name

/-- Settings are told by the values of each name. -/
theorem Collects.same {others : List (String × String)} {other : Settings}
    (hs : Collects fields s) (hother : Collects others other)
    (hvalues : ∀ name, valuesOf others name = valuesOf fields name) : s.Same other := by
  have hlast : ∀ name, lastOf others name = lastOf fields name := by
    intro name
    rw [lastOf, lastOf, hvalues]
  have hmem : ∀ name value, (name, value) ∈ other.parameters ↔ (name, value) ∈ s.parameters := by
    intro name value
    rw [hs.parameters, hother.parameters, hlast]
  refine ⟨?_, ?_, ?_, ?_, ?_, ?_, ?_, ?_, ?_, ?_, ?_⟩
  · rw [hs.protocol, hother.protocol, hlast]
  · rw [hs.connectionId, hother.connectionId, hlast]
  · exact IsSize.unique (hlast "width" ▸ hother.width) hs.width
  · exact IsSize.unique (hlast "height" ▸ hother.height) hs.height
  · exact IsSize.unique (hlast "dpi" ▸ hother.dpi) hs.dpi
  · rw [hs.audio, hother.audio, hvalues]
  · rw [hs.video, hother.video, hvalues]
  · rw [hs.image, hother.image, hvalues]
  · rw [hs.timezone, hother.timezone, hlast]
  · exact (List.perm_ext_iff_of_nodup hother.nodup.of_map hs.nodup.of_map).mpr
      fun ⟨name, value⟩ => hmem name value
  · intro name
    refine Option.ext fun value => ?_
    unfold parameter?
    rw [← mem_iff_lookup hs.nodup, ← mem_iff_lookup hother.nodup]
    exact hmem name value

/-- Fields of different names may change places. -/
theorem exists_same_of_swap {front rest : List (String × String)} {first second : String × String}
    (hne : first.1 ≠ second.1) (hform : ofFields (front ++ first :: second :: rest) = .ok s) :
    ∃ other, ofFields (front ++ second :: first :: rest) = .ok other ∧ s.Same other := by
  have hperm : (front ++ second :: first :: rest).Perm (front ++ first :: second :: rest) :=
    (List.Perm.swap first second rest).append_left front
  have hvalid := not_isInvalid_of_ofFields hform
  obtain ⟨hcollects, field, hfield, hnamed⟩ := collects_of_ofFields hform
  have hothers : ∀ field ∈ front ++ second :: first :: rest, ¬ IsInvalid field :=
    fun field hmem => hvalid field (hperm.mem_iff.mp hmem)
  rcases ofFields_of_valid hothers with ⟨hnone, -⟩ | ⟨other, hother⟩
  · exact absurd hnamed (hnone field (hperm.mem_iff.mpr hfield))
  · exact ⟨other, hother,
      hcollects.same (collects_of_ofFields hother).1 (valuesOf_swap hne front rest)⟩

/-- The first size that is no number within its bound is what a form is refused with, whatever
comes after it. A form without one is refused exactly if it tells nothing to connect to. The
settings of any other form hold what its fields give their names, and stay the same if fields of
different names change places. -/
theorem ofFields_by_names (fields : List (String × String)) :
    (∀ front name value rest, fields = front ++ (name, value) :: rest →
      (∀ field ∈ front, ¬ IsInvalid field) → IsInvalid (name, value) →
        ofFields fields = .error (.invalidParameter name value)) ∧
    ((∀ field ∈ fields, ¬ IsInvalid field) →
      (ofFields fields = .error .missingProtocol ↔ ∀ field ∈ fields, ¬ IsNamed field) ∧
      ((∃ field ∈ fields, IsNamed field) → ∃ s, ofFields fields = .ok s)) ∧
    (∀ s, ofFields fields = .ok s → Collects fields s) ∧
    (∀ front first second rest s, fields = front ++ first :: second :: rest →
      first.1 ≠ second.1 → ofFields fields = .ok s →
        ∃ other, ofFields (front ++ second :: first :: rest) = .ok other ∧ s.Same other) := by
  refine ⟨?_, ?_, fun s hform => (collects_of_ofFields hform).1, ?_⟩
  · rintro front name value rest rfl hfront hinvalid
    unfold ofFields
    rw [addFields_of_isInvalid hfront hinvalid]
  · intro hvalid
    rcases ofFields_of_valid hvalid with ⟨hnone, hmissing⟩ | ⟨s, hform⟩
    · refine ⟨iff_of_true hmissing hnone, ?_⟩
      rintro ⟨field, hfield, hnamed⟩
      exact absurd hnamed (hnone field hfield)
    · obtain ⟨-, field, hfield, hnamed⟩ := collects_of_ofFields hform
      refine ⟨iff_of_false ?_ fun hnone => hnone field hfield hnamed, fun _ => ⟨s, hform⟩⟩
      rw [hform]
      nofun
  · rintro front first second rest s rfl hne hform
    exact exists_same_of_swap hne hform

/-- A width that is no number before one that is, a form that names no protocol, and one with
repeated names, two of whose fields change places. -/
theorem ofFields_of_desktop :
    ofFields [("width", "wide"), ("width", "800")] = .error (.invalidParameter "width" "wide") ∧
    ofFields [("hostname", "desktop")] = .error .missingProtocol ∧
    ∃ s other,
      ofFields [("audio", "x"), ("hostname", "a"), ("protocol", "rdp"), ("hostname", "b"),
        ("audio", "y"), ("width", "+0800")] = .ok s ∧
      Collects [("audio", "x"), ("hostname", "a"), ("protocol", "rdp"), ("hostname", "b"),
        ("audio", "y"), ("width", "+0800")] s ∧
      ofFields [("audio", "x"), ("hostname", "a"), ("hostname", "b"), ("protocol", "rdp"),
        ("audio", "y"), ("width", "+0800")] = .ok other ∧
      s.Same other := by
  have hwide : IsInvalid ("width", "wide") :=
    ⟨by decide, Unsigned.exists_read_error_iff.mp ⟨.invalidDigit, by decide⟩⟩
  have hdesktop : ∀ field ∈ [("hostname", "desktop")], ¬ IsInvalid field := by
    simp [IsInvalid, sizeNames]
  refine ⟨(ofFields_by_names _).1 [] "width" "wide" _ rfl nofun hwide,
    ((ofFields_by_names _).2.1 hdesktop).1.mpr (by simp [IsNamed]), ?_⟩
  have hform : ofFields [("audio", "x"), ("hostname", "a"), ("protocol", "rdp"),
      ("hostname", "b"), ("audio", "y"), ("width", "+0800")] =
      .ok { protocol := some "rdp", width := 800, audio := ["x", "y"],
            parameters := [("hostname", "b")] } := by decide
  obtain ⟨other, hother, hsame⟩ := (ofFields_by_names _).2.2.2
    [("audio", "x"), ("hostname", "a")] ("protocol", "rdp") ("hostname", "b")
    [("audio", "y"), ("width", "+0800")] _ rfl (by decide) hform
  exact ⟨_, other, hform, (ofFields_by_names _).2.2.1 _ hform, hother, hsame⟩

end LongPollTunnel.Settings
