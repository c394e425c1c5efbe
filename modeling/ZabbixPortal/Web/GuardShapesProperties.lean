import ZabbixPortal.Web.GuardShapes

/-! A check answers nothing exactly when the value has the shape, and otherwise the first place
where it does not: the path leads there, and everything before it fits. -/

set_option autoImplicit false

namespace ZabbixPortal.Web.Guards

open Foundation

variable {ν : Type} (table : ν → List (Key × Kind ν))

inductive Fits : Kind ν → Option Json → Prop where
  | text (value) : Fits .text (some (.text value))
  | num (value) : Fits .num (some (.number (some value)))
  | flag (value) : Fits .flag (some (.flag value))
  | absent (kind) : Fits (.opt kind) none
  | present {kind value} : Fits kind value → Fits (.opt kind) value
  | null (kind) : Fits (.orNull kind) (some .null)
  | value {kind value} : Fits kind value → Fits (.orNull kind) value
  | list {kind items} : (∀ item ∈ items, Fits kind (some item)) →
      Fits (.listOf kind) (some (.list items))
  | record {kind members} : (∀ entry ∈ members, Fits kind (some entry.2)) →
      Fits (.recordOf kind) (some (.object members))
  | shape {fields members} :
      (∀ entry ∈ fields, Fits entry.2 (Json.field members entry.1)) →
      Fits (.shape fields) (some (.object members))
  | lazy {name value} : Fits (.shape (table name)) value → Fits (.lazy name) value

inductive Step where
  | key (name : Key)
  | index (i : Nat)
deriving DecidableEq

namespace Step

def text : Step → List Char
  | .key name => name
  | .index i => indexText i

end Step

def pathText : List Step → List Char
  | [] => []
  | step :: rest => join step.text (pathText rest)

/-- What a kind is called where a value is not one, for the kinds that look at the value. -/
def Kind.noun : Kind ν → Option String
  | .text => some "text"
  | .num => some "a number"
  | .flag => some "true or false"
  | .listOf _ => some "a list"
  | .recordOf _ => some "an object"
  | .shape _ => some "an object"
  | _ => none

/-- The value is of the sort a kind looks at first: a text, a list, an object. -/
def Kind.Sort : Kind ν → Option Json → Prop
  | .text, some (.text _) => True
  | .num, some (.number (some _)) => True
  | .flag, some (.flag _) => True
  | .listOf _, some (.list _) => True
  | .recordOf _, some (.object _) => True
  | .shape _, some (.object _) => True
  | _, _ => False

/-- A value goes wrong for the first time at a place, and for a reason. -/
inductive Wrong : Kind ν → Option Json → List Step → String → Prop where
  | here {kind value noun} : kind.noun = some noun → ¬ kind.Sort value →
      Wrong kind value [] (whyBad value noun)
  | present {kind value steps why} : value ≠ none →
      Wrong kind value steps why → Wrong (.opt kind) value steps why
  | value {kind value steps why} : value ≠ some .null →
      Wrong kind value steps why → Wrong (.orNull kind) value steps why
  | item {kind before item after steps why} : (∀ other ∈ before, Fits table kind (some other)) →
      Wrong kind (some item) steps why →
      Wrong (.listOf kind) (some (.list (before ++ item :: after)))
        (.index before.length :: steps) why
  | member {kind before entry after steps why} :
      (∀ other ∈ before, Fits table kind (some other.2)) →
      Wrong kind (some entry.2) steps why →
      Wrong (.recordOf kind) (some (.object (before ++ entry :: after)))
        (.key entry.1 :: steps) why
  | field {before entry after members steps why} :
      (∀ other ∈ before, Fits table other.2 (Json.field members other.1)) →
      Wrong entry.2 (Json.field members entry.1) steps why →
      Wrong (.shape (before ++ entry :: after)) (some (.object members))
        (.key entry.1 :: steps) why
  | lazy {name value steps why} : Wrong (.shape (table name)) value steps why →
      Wrong (.lazy name) value steps why

structure Reports (kind : Kind ν) (value : Option Json) (answer : Option Misfit) : Prop where
  fits : answer = none ↔ Fits table kind value
  wrong : ∀ m, answer = some m →
    ∃ steps, Wrong table kind value steps m.why ∧ m.path = pathText steps

variable {table}

/-- A value not of the sort its kind looks at. -/
theorem Reports.bad {kind : Kind ν} {value : Option Json} {noun : String}
    (called : kind.noun = some noun) (other : ¬ kind.Sort value)
    (unfit : ¬ Fits table kind value) : Reports table kind value (some (bad value noun)) where
  fits := ⟨fun absent => absurd absent (Option.some_ne_none _), fun fits => absurd fits unfit⟩
  wrong := by
    intro m answered
    cases answered
    exact ⟨[], .here called other, rfl⟩

theorem Fits.sort {kind : Kind ν} {value : Option Json} {noun : String}
    (called : kind.noun = some noun) (fits : Fits table kind value) : kind.Sort value := by
  cases fits with
  | text | num | flag | list | record | shape => trivial
  | absent | present | null | value | lazy => cases called

theorem Reports.sort {kind : Kind ν} {value : Option Json} {noun : String}
    (called : kind.noun = some noun) (other : ¬ kind.Sort value) :
    Reports table kind value (some (Guards.bad value noun)) :=
  .bad called other fun fits => other (fits.sort called)

theorem Reports.nothing {kind : Kind ν} {value : Option Json} (fits : Fits table kind value) :
    Reports table kind value none where
  fits := ⟨fun _ => fits, fun _ => rfl⟩
  wrong := fun _ answered => nomatch answered

theorem Reports.opt {kind : Kind ν} {check : Check} {value : Option Json}
    (known : Reports table kind value (check value)) :
    Reports table (.opt kind) value (opt check value) := by
  cases value with
  | none => exact .nothing (.absent kind)
  | some value =>
      refine ⟨known.fits.trans ⟨.present, ?_⟩, ?_⟩
      · intro fits
        cases fits with
        | present fits => exact fits
      · intro m answered
        obtain ⟨steps, wrong, path⟩ := known.wrong m answered
        exact ⟨steps, .present (Option.some_ne_none value) wrong, path⟩

theorem Reports.orNull {kind : Kind ν} {check : Check} {value : Option Json}
    (known : Reports table kind value (check value)) :
    Reports table (.orNull kind) value (orNull check value) := by
  by_cases null : value = some .null
  · subst null
    exact .nothing (.null kind)
  · have asked : Guards.orNull check value = check value := by
      cases value with
      | none => rfl
      | some value =>
          cases value with
          | null => exact absurd rfl null
          | flag | number | text | list | object => rfl
    rw [asked]
    refine ⟨known.fits.trans ⟨.value, ?_⟩, ?_⟩
    · intro fits
      cases fits with
      | null => exact absurd rfl null
      | value fits => exact fits
    · intro m answered
      obtain ⟨steps, wrong, path⟩ := known.wrong m answered
      exact ⟨steps, .value null wrong, path⟩

/-- The first entry of a numbered list that answers, and what stands before it. -/
theorem findSome_zipIdx {α β : Type} {items : List α} {ask : α × Nat → Option β} {answer : β}
    (found : items.zipIdx.findSome? ask = some answer) :
    ∃ before item after, items = before ++ item :: after ∧
      ask (item, before.length) = some answer ∧ ∀ other ∈ before, ∃ i, ask (other, i) = none := by
  obtain ⟨front, entry, back, split, asked, silent⟩ := List.findSome?_eq_some_iff.mp found
  obtain ⟨before, rest, whole, numbered, others⟩ := List.zipIdx_eq_append_iff.mp split
  obtain ⟨item, after, same, first, _⟩ := List.zipIdx_eq_cons_iff.mp others.symm
  subst whole same first
  refine ⟨before, item, after, rfl, by simpa using asked, ?_⟩
  intro other member
  obtain ⟨i, inFront⟩ : ∃ i, (other, i) ∈ before.zipIdx := by
    obtain ⟨i, bound, at_⟩ := List.getElem_of_mem member
    exact ⟨i, List.mem_zipIdx_iff_getElem?.mpr (by simp [at_, bound])⟩
  exact ⟨i, silent _ (numbered ▸ inFront)⟩

theorem Reports.listOf {kind : Kind ν} {check : Check} {value : Option Json}
    (known : ∀ items, value = some (.list items) → ∀ item ∈ items,
      Reports table kind (some item) (check (some item))) :
    Reports table (.listOf kind) value (listOf check value) := by
  cases value with
  | none => exact .sort rfl id
  | some value =>
  cases value with
  | null | flag | number | text | object => exact .sort rfl id
  | list items =>
    have known := known items rfl
    constructor
    · rw [Guards.listOf, List.findSome?_eq_none_iff]
      constructor
      · intro silent
        refine .list fun item member => (known item member).fits.mp ?_
        obtain ⟨i, bound, at_⟩ := List.getElem_of_mem member
        have entry : (item, i) ∈ items.zipIdx :=
          List.mem_zipIdx_iff_getElem?.mpr (by simp [at_, bound])
        exact Option.map_eq_none_iff.mp (silent _ entry)
      · intro fits
        cases fits with
        | list fits =>
            intro entry member
            have inside : entry.1 ∈ items := List.fst_mem_of_mem_zipIdx member
            exact Option.map_eq_none_iff.mpr ((known _ inside).fits.mpr (fits _ inside))
    · intro m answered
      obtain ⟨before, item, after, whole, asked, silent⟩ := findSome_zipIdx answered
      obtain ⟨inner, wrongly, same⟩ := Option.map_eq_some_iff.mp asked
      have inside : ∀ other ∈ before, other ∈ items := fun other member =>
        whole ▸ List.mem_append_left _ member
      obtain ⟨steps, wrong, path⟩ :=
        (known item (whole ▸ List.mem_append_right _ List.mem_cons_self)).wrong inner wrongly
      refine ⟨.index before.length :: steps, ?_, ?_⟩
      · rw [whole, ← same]
        refine .item (fun other member => ?_) wrong
        obtain ⟨i, absent⟩ := silent other member
        exact (known other (inside other member)).fits.mp (Option.map_eq_none_iff.mp absent)
      · rw [← same, under, path]
        rfl

theorem Reports.recordOf {kind : Kind ν} {check : Check} {value : Option Json}
    (known : ∀ members, value = some (.object members) → ∀ entry ∈ members,
      Reports table kind (some entry.2) (check (some entry.2))) :
    Reports table (.recordOf kind) value (recordOf check value) := by
  cases value with
  | none => exact .sort rfl id
  | some value =>
  cases value with
  | null | flag | number | text | list => exact .sort rfl id
  | object members =>
    have known := known members rfl
    constructor
    · rw [Guards.recordOf, List.findSome?_eq_none_iff]
      constructor
      · intro silent
        exact .record fun entry member =>
          (known entry member).fits.mp (Option.map_eq_none_iff.mp (silent entry member))
      · intro fits
        cases fits with
        | record fits =>
            exact fun entry member =>
              Option.map_eq_none_iff.mpr ((known entry member).fits.mpr (fits entry member))
    · intro m answered
      obtain ⟨before, entry, after, whole, asked, silent⟩ :=
        List.findSome?_eq_some_iff.mp answered
      obtain ⟨inner, wrongly, same⟩ := Option.map_eq_some_iff.mp asked
      obtain ⟨steps, wrong, path⟩ :=
        (known entry (whole ▸ List.mem_append_right _ List.mem_cons_self)).wrong inner wrongly
      refine ⟨.key entry.1 :: steps, ?_, ?_⟩
      · rw [whole, ← same]
        refine .member (fun other member => ?_) wrong
        have inside : other ∈ members := whole ▸ List.mem_append_left _ member
        exact (known other inside).fits.mp (Option.map_eq_none_iff.mp (silent other member))
      · rw [← same, under, path]
        rfl

theorem Reports.shape {fields : List (Key × Kind ν)} {asks : Kind ν → Check}
    {value : Option Json}
    (known : ∀ members, value = some (.object members) → ∀ entry ∈ fields,
      Reports table entry.2 (Json.field members entry.1)
        (asks entry.2 (Json.field members entry.1))) :
    Reports table (.shape fields) value
      (shape (fields.map fun entry => (entry.1, asks entry.2)) value) := by
  cases value with
  | none => exact .sort rfl id
  | some value =>
  cases value with
  | null | flag | number | text | list => exact .sort rfl id
  | object members =>
    have known := known members rfl
    rw [Guards.shape, List.findSome?_map]
    constructor
    · rw [List.findSome?_eq_none_iff]
      constructor
      · intro silent
        exact .shape fun entry member =>
          (known entry member).fits.mp (Option.map_eq_none_iff.mp (silent entry member))
      · intro fits
        cases fits with
        | shape fits =>
            exact fun entry member =>
              Option.map_eq_none_iff.mpr ((known entry member).fits.mpr (fits entry member))
    · intro m answered
      obtain ⟨before, entry, after, whole, asked, silent⟩ :=
        List.findSome?_eq_some_iff.mp answered
      obtain ⟨inner, wrongly, same⟩ := Option.map_eq_some_iff.mp asked
      obtain ⟨steps, wrong, path⟩ :=
        (known entry (whole ▸ List.mem_append_right _ List.mem_cons_self)).wrong inner wrongly
      refine ⟨.key entry.1 :: steps, ?_, ?_⟩
      · rw [whole, ← same]
        refine .field (fun other member => ?_) wrong
        have inside : other ∈ fields := whole ▸ List.mem_append_left _ member
        exact (known other inside).fits.mp (Option.map_eq_none_iff.mp (silent other member))
      · rw [← same, under, path]
        rfl

section Named

variable {named : ν → Check} {bound : Nat}

mutual

/-- What every kind answers, as far down as the names answer rightly. -/
theorem check_reports (known : ∀ name value, Json.depthOf value < bound →
      Reports table (.lazy name) value (named name value)) :
    ∀ (kind : Kind ν) (value : Option Json), Json.depthOf value < bound →
      Reports table kind value (kind.check named value)
  | .text, value, _ => by
      cases value with
      | none => exact .sort rfl id
      | some value =>
          cases value with
          | text value => exact .nothing (.text value)
          | null | flag | number | list | object => exact .sort rfl id
  | .num, value, _ => by
      cases value with
      | none => exact .sort rfl id
      | some value =>
          cases value with
          | number value =>
              cases value with
              | none => exact .sort rfl id
              | some value => exact .nothing (.num value)
          | null | flag | text | list | object => exact .sort rfl id
  | .flag, value, _ => by
      cases value with
      | none => exact .sort rfl id
      | some value =>
          cases value with
          | flag value => exact .nothing (.flag value)
          | null | number | text | list | object => exact .sort rfl id
  | .opt kind, value, below => .opt (check_reports known kind value below)
  | .orNull kind, value, below => .orNull (check_reports known kind value below)
  | .listOf kind, value, below => .listOf fun items same item member =>
      check_reports known kind (some item) (by
        subst same
        exact (Json.depth_item member).trans below)
  | .recordOf kind, value, below => .recordOf fun members same entry member =>
      check_reports known kind (some entry.2) (by
        subst same
        exact (Json.depth_member member).trans below)
  | .shape fields, value, below => by
      rw [Kind.check, Kind.checks_eq_map]
      refine @Reports.shape ν table fields (fun kind => kind.check named) value
        fun members same entry member => ?_
      subst same
      exact fields_report known fields entry member _ ((Json.depth_field _ _).trans below)
  | .lazy name, value, below => known name value below

theorem fields_report (known : ∀ name value, Json.depthOf value < bound →
      Reports table (.lazy name) value (named name value)) :
    ∀ (fields : List (Key × Kind ν)), ∀ entry ∈ fields, ∀ value, Json.depthOf value < bound →
      Reports table entry.2 value (entry.2.check named value)
  | [], entry, member, _, _ => absurd member List.not_mem_nil
  | (key, kind) :: rest, entry, member, value, below => by
      cases List.mem_cons.mp member with
      | inl same =>
          subst same
          exact check_reports known kind value below
      | inr later => exact fields_report known rest entry later value below

end

end Named

section Agreement

theorem findSome_congr {α β : Type} {items : List α} {ask other : α → Option β}
    (same : ∀ item ∈ items, ask item = other item) :
    items.findSome? ask = items.findSome? other := by
  induction items with
  | nil => rfl
  | cons head rest ih =>
      rw [List.findSome?_cons, List.findSome?_cons, same head List.mem_cons_self,
        ih fun item member => same item (List.mem_cons_of_mem _ member)]

variable {left right : ν → Check} {bound : Nat}

mutual

/-- A check asks the names only about what it is given and what is inside it. -/
theorem check_congr (agree : ∀ name value, Json.depthOf value < bound →
      left name value = right name value) :
    ∀ (kind : Kind ν) (value : Option Json), Json.depthOf value < bound →
      kind.check left value = kind.check right value
  | .text, _, _ => rfl
  | .num, _, _ => rfl
  | .flag, _, _ => rfl
  | .opt kind, value, below => by
      cases value with
      | none => rfl
      | some value => exact check_congr agree kind (some value) below
  | .orNull kind, value, below => by
      have inner := check_congr agree kind value below
      cases value with
      | none => exact inner
      | some value =>
          cases value with
          | null => rfl
          | flag | number | text | list | object => exact inner
  | .listOf kind, value, below => by
      cases value with
      | none => rfl
      | some value =>
          cases value with
          | list items =>
              refine findSome_congr fun entry member => ?_
              have inside : entry.1 ∈ items := List.fst_mem_of_mem_zipIdx member
              have deeper := (Json.depth_item inside).trans below
              rw [check_congr agree kind (some entry.1) deeper]
          | null | flag | number | text | object => rfl
  | .recordOf kind, value, below => by
      cases value with
      | none => rfl
      | some value =>
          cases value with
          | object members =>
              refine findSome_congr fun entry member => ?_
              have deeper := (Json.depth_member member).trans below
              rw [check_congr agree kind (some entry.2) deeper]
          | null | flag | number | text | list => rfl
  | .shape fields, value, below => by
      cases value with
      | none => rfl
      | some value =>
          cases value with
          | object members =>
              refine fields_congr agree fields members ?_
              intro key
              exact (Json.depth_field members key).trans below
          | null | flag | number | text | list => rfl
  | .lazy name, value, below => agree name value below

theorem fields_congr (agree : ∀ name value, Json.depthOf value < bound →
      left name value = right name value) :
    ∀ (fields : List (Key × Kind ν)) (members : List (Key × Json)),
      (∀ key, Json.depthOf (Json.field members key) < bound) →
      shape (Kind.checks left fields) (some (.object members)) =
        shape (Kind.checks right fields) (some (.object members))
  | [], _, _ => rfl
  | (key, kind) :: rest, members, below => by
      have first := check_congr agree kind (Json.field members key) (below key)
      have others := fields_congr agree rest members below
      simp only [shape, Kind.checks, List.findSome?_cons] at others ⊢
      rw [first, others]

end

end Agreement

variable (table)

theorem contractive_unfoldNames :
    Contractive (fun call : ν × Option Json => Json.depthOf call.2) (Kind.unfoldNames table) := by
  intro bound left right agree call below
  obtain ⟨name, value⟩ := call
  have agreeing : ∀ name value, Json.depthOf value < bound →
      left (name, value) = right (name, value) := fun name value lower => agree (name, value) lower
  cases value with
  | none => rfl
  | some value =>
      cases value with
      | object members =>
          refine fields_congr agreeing (table name) members fun key => ?_
          exact lt_of_lt_of_le (Json.depth_field members key) (Nat.le_of_lt_succ below)
      | null | flag | number | text | list => rfl

/-- A name's check is the check of its own fields, as the source binds it. -/
theorem named_eq (name : ν) :
    Kind.named table name = (Kind.shape (table name)).check (Kind.named table) := by
  funext value
  exact (congrFun ((contractive_unfoldNames table).fixOf_eq fun _ => none) (name, value)).symm

/-- No other checks behind the names satisfy these equations. -/
theorem named_unique (other : ν → Check)
    (bound : ∀ name, other name = (Kind.shape (table name)).check other) :
    other = Kind.named table := by
  have fixed : Kind.unfoldNames table (fun call => other call.1 call.2) =
      fun call => other call.1 call.2 := by
    funext call
    exact (congrFun (bound call.1) call.2).symm
  funext name value
  exact congrFun ((contractive_unfoldNames table).fixOf_unique (fun _ => none) _ fixed)
    (name, value)

theorem Reports.lazy {name : ν} {value : Option Json} {answer : Option Misfit}
    (known : Reports table (.shape (table name)) value answer) :
    Reports table (.lazy name) value answer := by
  refine ⟨known.fits.trans ⟨.lazy, ?_⟩, ?_⟩
  · intro fits
    cases fits with
    | lazy fits => exact fits
  · intro m answered
    obtain ⟨steps, wrong, path⟩ := known.wrong m answered
    exact ⟨steps, .lazy wrong, path⟩

theorem named_reports (bound : Nat) : ∀ (name : ν) (value : Option Json),
    Json.depthOf value < bound →
      Reports table (.lazy name) value (Kind.named table name value) := by
  induction bound with
  | zero => exact fun name value below => absurd below (Nat.not_lt_zero _)
  | succ bound ih =>
      intro name value below
      refine .lazy table ?_
      rw [named_eq, Kind.check, Kind.checks_eq_map]
      refine @Reports.shape ν table (table name) (fun kind => kind.check (Kind.named table)) value
        fun members same entry member => ?_
      subst same
      exact fields_report ih (table name) entry member _
        (lt_of_lt_of_le (Json.depth_field _ _) (Nat.le_of_lt_succ below))

theorem run_reports (kind : Kind ν) (value : Option Json) :
    Reports table kind value (kind.run table value) :=
  check_reports (named_reports table _) kind value (Nat.lt_succ_self _)

/-! ### The place a misfit names -/

inductive Leads : Option Json → List Step → Option Json → Prop where
  | here (value) : Leads value [] value
  | key {members key value steps place} : (key, value) ∈ members → Leads (some value) steps place →
      Leads (some (.object members)) (.key key :: steps) place
  | absent {members key steps place} : key ∉ members.map Prod.fst → Leads none steps place →
      Leads (some (.object members)) (.key key :: steps) place
  | index {items i value steps place} : items[i]? = some value → Leads (some value) steps place →
      Leads (some (.list items)) (.index i :: steps) place

theorem Leads.field {members : List (Key × Json)} {key : Key} {steps : List Step}
    {place : Option Json} (leads : Leads (Json.field members key) steps place) :
    Leads (some (.object members)) (.key key :: steps) place := by
  cases found : Json.field members key with
  | none =>
      refine .absent ?_ (found ▸ leads)
      intro member
      obtain ⟨entry, inside, same⟩ := List.mem_map.mp member
      have unequal := List.lookup_eq_none_iff.mp found entry inside
      rw [same, bne_self_eq_false] at unequal
      cases unequal
  | some value => exact .key (Json.mem_of_field found) (found ▸ leads)

theorem Wrong.place {table : ν → List (Key × Kind ν)} {kind : Kind ν} {value : Option Json}
    {steps : List Step} {why : String} (wrong : Wrong table kind value steps why) :
    ∃ (place : Option Json) (expected : Kind ν) (noun : String), Leads value steps place ∧
      expected.noun = some noun ∧ ¬ expected.Sort place ∧ why = whyBad place noun := by
  induction wrong with
  | @here kind value noun called other => exact ⟨value, kind, noun, .here value, called, other, rfl⟩
  | present _ _ ih => exact ih
  | value _ _ ih => exact ih
  | @item kind before item after steps why _ _ ih =>
      obtain ⟨place, expected, noun, leads, unfit⟩ := ih
      exact ⟨place, expected, noun, .index (by simp) leads, unfit⟩
  | @member kind before entry after steps why _ _ ih =>
      obtain ⟨place, expected, noun, leads, unfit⟩ := ih
      exact ⟨place, expected, noun, .key (List.mem_append_right _ List.mem_cons_self) leads, unfit⟩
  | field _ _ ih =>
      obtain ⟨place, expected, noun, leads, unfit⟩ := ih
      exact ⟨place, expected, noun, leads.field, unfit⟩
  | lazy _ ih => exact ih

/-- A name that no step or bracket is read into. -/
def isPlain (c : Char) : Bool := c != '.' && c != '['

def Step.Plain : Step → Prop
  | .key name => name ≠ [] ∧ ∀ c ∈ name, isPlain c = true
  | .index _ => True

def readSteps : Nat → List Char → List Step
  | 0, _ => []
  | _ + 1, [] => []
  | fuel + 1, c :: rest =>
      if c = '.' then readSteps fuel rest
      else if c = '[' then
        .index (Nat.ofDigitChars 10 (rest.takeWhile (· != ']')) 0) ::
          readSteps fuel (rest.dropWhile (· != ']')).tail
      else
        .key ((c :: rest).takeWhile isPlain) :: readSteps fuel ((c :: rest).dropWhile isPlain)

def readPath (path : List Char) : List Step := readSteps (path.length + 1) path

def behind : List Step → List Char
  | [] => []
  | .key name :: rest => '.' :: (name ++ behind rest)
  | .index i :: rest => indexText i ++ behind rest

theorem pathText_cons {step : Step} {rest : List Step} (plain : ∀ s ∈ step :: rest, s.Plain) :
    pathText (step :: rest) = step.text ++ behind rest := by
  induction rest generalizing step with
  | nil => exact (List.append_nil _).symm
  | cons next rest ih =>
      have later : ∀ s ∈ next :: rest, s.Plain := fun s member =>
        plain s (List.mem_cons_of_mem _ member)
      have written := ih later
      rw [pathText, written]
      have named : step.text ≠ [] := by
        cases step with
        | index i => exact List.cons_ne_nil _ _
        | key name => exact (plain _ List.mem_cons_self).1
      cases next with
      | index i => exact (if_neg (List.cons_ne_nil _ _)).trans ((if_neg named).trans (if_pos rfl))
      | key name =>
          obtain ⟨nonempty, chars⟩ := later _ List.mem_cons_self
          obtain ⟨c, more, rfl⟩ := List.exists_cons_of_ne_nil nonempty
          have unbracketed : c ≠ '[' := by
            have := chars c List.mem_cons_self
            simp only [isPlain, Bool.and_eq_true, bne_iff_ne] at this
            exact this.2
          have other : (c :: (more ++ behind rest)).head? ≠ some '[' := fun same =>
            unbracketed (Option.some.inj same)
          exact (if_neg (List.cons_ne_nil _ _)).trans ((if_neg named).trans (if_neg other))

theorem head_behind (rest : List Step) : ∀ c, (behind rest).head? = some c → isPlain c = false := by
  intro c first
  match rest with
  | [] => cases first
  | .key name :: rest => cases first; rfl
  | .index i :: rest => cases first; rfl

theorem readSteps_key {name : List Char} (plain : (Step.key name).Plain) (rest : List Step)
    (fuel : Nat) :
    readSteps (fuel + 1) (name ++ behind rest) = .key name :: readSteps fuel (behind rest) := by
  obtain ⟨nonempty, chars⟩ := plain
  have taken : (name ++ behind rest).takeWhile isPlain = name := by
    rw [List.takeWhile_append_of_pos chars]
    cases later : behind rest with
    | nil => simp
    | cons c more => simp [head_behind rest c (by rw [later]; rfl)]
  have dropped : (name ++ behind rest).dropWhile isPlain = behind rest := by
    rw [List.dropWhile_append_of_pos chars]
    cases later : behind rest with
    | nil => rfl
    | cons c more =>
        rw [List.dropWhile_cons_of_neg (by simp [head_behind rest c (by rw [later]; rfl)])]
  obtain ⟨c, more, rfl⟩ := List.exists_cons_of_ne_nil nonempty
  have first := chars c List.mem_cons_self
  simp only [isPlain, Bool.and_eq_true, bne_iff_ne] at first
  rw [List.cons_append] at taken dropped ⊢
  rw [readSteps, if_neg first.1, if_neg first.2, taken, dropped]

theorem readSteps_index (i : Nat) (rest : List Char) (fuel : Nat) :
    readSteps (fuel + 1) (indexText i ++ rest) = .index i :: readSteps fuel rest := by
  have digits : ∀ c ∈ Nat.toDigits 10 i, (c != ']') = true := by
    intro c member
    have digit := Nat.isDigit_of_mem_toDigits (by decide) (by decide) member
    rw [bne_iff_ne]
    rintro rfl
    exact absurd digit (by decide)
  have shape : indexText i ++ rest = '[' :: (Nat.toDigits 10 i ++ ']' :: rest) := by
    simp [indexText]
  rw [shape, readSteps, if_neg (by decide), if_pos rfl, List.takeWhile_append_of_pos digits,
    List.dropWhile_append_of_pos digits]
  simp [Nat.ofDigitChars_ten_toDigits]

theorem readSteps_behind {rest : List Step} (plain : ∀ s ∈ rest, s.Plain) {fuel : Nat}
    (enough : (behind rest).length < fuel) : readSteps fuel (behind rest) = rest := by
  induction rest generalizing fuel with
  | nil =>
      obtain ⟨fuel, rfl⟩ := Nat.exists_eq_add_one_of_ne_zero (Nat.ne_of_gt enough)
      rfl
  | cons step rest ih =>
      have later := fun s member => plain s (List.mem_cons_of_mem step member)
      cases step with
      | key name =>
          have plainName := plain _ List.mem_cons_self
          have length : (behind (.key name :: rest)).length =
              name.length + (behind rest).length + 1 := by simp [behind]
          have one := List.length_pos_of_ne_nil plainName.1
          obtain ⟨fuel, rfl⟩ : ∃ more, fuel = more + 2 := ⟨fuel - 2, by omega⟩
          rw [behind, readSteps, if_pos rfl, readSteps_key plainName, ih later (by omega)]
      | index i =>
          have length : (behind (.index i :: rest)).length =
              (indexText i).length + (behind rest).length := by simp [behind]
          have one : 0 < (indexText i).length := Nat.succ_pos _
          obtain ⟨fuel, rfl⟩ : ∃ more, fuel = more + 1 := ⟨fuel - 1, by omega⟩
          rw [behind, readSteps_index, ih later (by omega)]

/-- Keys without a point or a bracket: a path's text is one path only. -/
theorem readPath_pathText {steps : List Step} (plain : ∀ s ∈ steps, s.Plain) :
    readPath (pathText steps) = steps := by
  cases steps with
  | nil => rfl
  | cons step rest =>
      have later := fun s member => plain s (List.mem_cons_of_mem step member)
      rw [readPath, pathText_cons plain]
      have length : (step.text ++ behind rest).length = step.text.length + (behind rest).length :=
        List.length_append
      cases step with
      | key name =>
          have plainName := plain _ List.mem_cons_self
          have one := List.length_pos_of_ne_nil plainName.1
          rw [Step.text] at length ⊢
          rw [readSteps_key plainName, readSteps_behind later (by omega)]
      | index i =>
          have one : 0 < (indexText i).length := Nat.succ_pos _
          rw [Step.text] at length ⊢
          rw [readSteps_index, readSteps_behind later (by omega)]

def detailText (steps : List Step) (why : String) : String :=
  (if pathText steps = [] then "the answer" else String.ofList (pathText steps)) ++ " " ++ why

/-- A check is silent exactly on the values of its kind. What it says of another is the first
place that goes wrong, where a value of the wrong sort stands or none at all, under a path
that names this place alone. -/
theorem misfit_exact (kind : Kind ν) (value : Option Json) :
    (misfit (kind.run table) value = none ↔ Fits table kind value) ∧
    ∀ detail, misfit (kind.run table) value = some detail →
      ∃ (steps : List Step) (place : Option Json) (expected : Kind ν) (noun : String),
        Wrong table kind value steps (whyBad place noun) ∧ Leads value steps place ∧
        expected.noun = some noun ∧ ¬ expected.Sort place ∧
        detail = detailText steps (whyBad place noun) ∧
        ((∀ s ∈ steps, s.Plain) → readPath (pathText steps) = steps) := by
  have reports := run_reports table kind value
  constructor
  · rw [misfit, Option.map_eq_none_iff]
    exact reports.fits
  · intro detail told
    obtain ⟨m, answered, same⟩ := Option.map_eq_some_iff.mp told
    obtain ⟨steps, wrong, path⟩ := reports.wrong m answered
    obtain ⟨place, expected, noun, leads, called, other, why⟩ := wrong.place
    refine ⟨steps, place, expected, noun, why ▸ wrong, leads, called, other, ?_,
      readPath_pathText⟩
    rw [← same, detailText, path, ← why]

example : misfit ((Kind.listOf tag).run nodeFields)
    (some (.list [.object [("tag".toList, .text "a")]])) = some "[0].value is missing" := by
  decide

end ZabbixPortal.Web.Guards
