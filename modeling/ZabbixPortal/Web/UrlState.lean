import ZabbixPortal.Foundation.FormUrlEncoded
import ZabbixPortal.Foundation.Number
import Mathlib.Data.List.Induction
import Mathlib.Logic.Function.Basic

/-! Page state in the query string: any number of fields of a page, typed into and written late,
and other writers beside them. What is written of each lands, and nothing else moves. -/

set_option autoImplicit false

namespace ZabbixPortal.Web.UrlState

open Foundation

/-! ### Patches of the query string -/

structure Location where
  pathname : String
  search : String
  hash : String
deriving DecidableEq, Repr

/-- `new URLSearchParams(search)` -/
def params (search : String) : List (String × String) :=
  FormUrlEncoded.parse (match search.toList with
    | '?' :: query => String.ofList query
    | _ => search)

def searchOf (pairs : List (String × String)) : String :=
  let text := FormUrlEncoded.serialize pairs
  if text = "" then "" else "?" ++ text

/-- One entry of a patch: none or an empty text removes the parameter. -/
def change (pairs : List (String × String)) (entry : String × Option String) :
    List (String × String) :=
  match entry.2 with
  | none => SearchParams.delete entry.1 pairs
  | some value =>
      if value = "" then SearchParams.delete entry.1 pairs
      else SearchParams.set entry.1 value pairs

def searchPatch (pathname : String) (patch : List (String × Option String)) (location : Location) :
    Location :=
  if location.pathname ≠ pathname then location
  else
    let search := searchOf (patch.foldl change (params location.search))
    if search = location.search then location else { location with search }

/-! ### A field -/

inductive UrlValue where
  | text (value : String)
  | number (value : ℚ)
  | flag (value : Bool)
deriving DecidableEq, Repr

structure Field where
  key : String
  fallback : UrlValue
  options : Option (List UrlValue)
  /-- Nought for a field that is written at once. -/
  debounceMs : ℕ

def Field.admitted (field : Field) (value : UrlValue) : UrlValue :=
  match field.options with
  | none => value
  | some options => if value ∈ options then value else field.fallback

def Field.parse (field : Field) : Option String → UrlValue
  | none => field.fallback
  | some raw =>
      match field.fallback with
      | .number _ =>
          match toNumber raw with
          | none => field.fallback
          | some value =>
              if trim raw.toList = [] then field.fallback else field.admitted (.number value)
      | .flag _ => field.admitted (.flag (raw = "1" || raw = "true"))
      | .text _ => field.admitted (.text raw)

variable (numberText : ℚ → String)

def serialize : UrlValue → String
  | .flag value => if value then "1" else "0"
  | .number value => numberText value
  | .text value => value

def Field.entry (field : Field) (value : UrlValue) : String × Option String :=
  (field.key, if value = field.fallback then none else some (serialize numberText value))

/-! ### A page -/

structure Slot where
  draft : Option UrlValue
  /-- The value that the timer writes. -/
  timer : Option UrlValue
  /-- The draft that was last drawn. -/
  drawn : Option UrlValue
deriving DecidableEq, Repr

structure State (ι : Type) where
  location : Location
  /-- The query string that was last drawn. -/
  search : String
  slots : ι → Slot

inductive Event (ι : Type) where
  | sets (field : ι) (value : UrlValue)
  | fires (field : ι)
  /-- Another writer of the page. -/
  | patches (patch : List (String × Option String))
  /-- The router's own state can lag behind the URL. -/
  | draws (fresh : Bool)
  /-- The effect that drops a draft the URL agrees with. -/
  | settles (field : ι)
  /-- The user goes to another page. -/
  | leaves (location : Location)

variable {ι : Type} [DecidableEq ι] (pathname : String) (fields : ι → Field)

def State.put (state : State ι) (i : ι) (slot : Slot) : State ι :=
  { state with slots := Function.update state.slots i slot }

def State.write (state : State ι) (i : ι) (value : UrlValue) : State ι :=
  { state with
    location := searchPatch pathname [(fields i).entry numberText value] state.location
    slots := Function.update state.slots i { state.slots i with timer := none } }

/-- What the field reads from the query string that was drawn. -/
def State.fromUrl (state : State ι) (i : ι) : UrlValue :=
  (fields i).parse (SearchParams.get (fields i).key (params state.search))

def State.shown (state : State ι) (i : ι) : UrlValue :=
  (state.slots i).draft.getD (state.fromUrl fields i)

def step (state : State ι) : Event ι → State ι
  | .sets i value =>
      let state := state.put i { state.slots i with draft := some value }
      if (fields i).debounceMs = 0 then state.write numberText pathname fields i value
      else state.put i { state.slots i with timer := some value }
  | .fires i =>
      match (state.slots i).timer with
      | none => state
      | some value => state.write numberText pathname fields i value
  | .patches patch => { state with location := searchPatch pathname patch state.location }
  | .draws fresh =>
      { state with
        search := if fresh then state.location.search else state.search
        slots := fun i => { state.slots i with drawn := (state.slots i).draft } }
  | .settles i =>
      match (state.slots i).drawn with
      | none => state
      | some value =>
          if (state.slots i).timer = none ∧ value = state.fromUrl fields i then
            state.put i { state.slots i with draft := none }
          else state
  | .leaves location => { state with location }

def run (state : State ι) (events : List (Event ι)) : State ι :=
  events.foldl (step numberText pathname fields) state

/-! ### What a patch does -/

theorem params_searchOf (pairs : List (String × String)) : params (searchOf pairs) = pairs := by
  rw [searchOf]
  by_cases empty : FormUrlEncoded.serialize pairs = ""
  · have bare : pairs = [] := by
      rw [← FormUrlEncoded.parse_serialize pairs, empty]
      rfl
    rw [bare]
    rfl
  · simp only [if_neg empty]
    rw [params, String.toList_append]
    change FormUrlEncoded.parse (String.ofList (FormUrlEncoded.serialize pairs).toList) = pairs
    rw [String.ofList_toList, FormUrlEncoded.parse_serialize]

theorem params_searchPatch {pathname : String} {location : Location}
    (here : location.pathname = pathname) (patch : List (String × Option String)) :
    params (searchPatch pathname patch location).search =
      patch.foldl change (params location.search) := by
  rw [searchPatch, if_neg (not_not.mpr here)]
  by_cases same : searchOf (patch.foldl change (params location.search)) = location.search
  · simp only [if_pos same]
    have read := params_searchOf (patch.foldl change (params location.search))
    rwa [same] at read
  · simp only [if_neg same]
    exact params_searchOf _

theorem searchPatch_kept (pathname : String) (patch : List (String × Option String))
    (location : Location) :
    (searchPatch pathname patch location).pathname = location.pathname ∧
      (searchPatch pathname patch location).hash = location.hash := by
  rw [searchPatch]
  split
  · exact ⟨rfl, rfl⟩
  · simp only
    split <;> exact ⟨rfl, rfl⟩

theorem get_change (pairs : List (String × String)) (entry : String × Option String) :
    SearchParams.get entry.1 (change pairs entry) = entry.2.filter (· ≠ "") := by
  obtain ⟨key, value⟩ := entry
  cases value with
  | none => exact SearchParams.get_delete _ _
  | some value =>
      by_cases empty : value = ""
      · rw [change]
        simp only [if_pos empty]
        rw [SearchParams.get_delete, empty]
        rfl
      · rw [change]
        simp only [if_neg empty]
        rw [SearchParams.get_set]
        simp [Option.filter, empty]

theorem change_of_dropped {keep : String → Bool} {entry : String × Option String}
    (dropped : keep entry.1 = false) (pairs : List (String × String)) :
    (change pairs entry).filter (fun pair => keep pair.1) =
      pairs.filter fun pair => keep pair.1 := by
  rw [change]
  split
  · exact SearchParams.delete_of_dropped dropped pairs
  · split
    · exact SearchParams.delete_of_dropped dropped pairs
    · exact SearchParams.set_of_dropped dropped _ pairs

theorem change_of_kept {keep : String → Bool} {entry : String × Option String}
    (kept : keep entry.1 = true) (pairs : List (String × String)) :
    (change pairs entry).filter (fun pair => keep pair.1) =
      change (pairs.filter fun pair => keep pair.1) entry := by
  rw [change, change]
  split
  · exact SearchParams.delete_filter keep _ pairs
  · split
    · exact SearchParams.delete_filter keep _ pairs
    · exact SearchParams.set_of_kept kept _ pairs

theorem changes_of_kept {keep : String → Bool} {patch : List (String × Option String)}
    (kept : ∀ entry ∈ patch, keep entry.1 = true) (pairs : List (String × String)) :
    (patch.foldl change pairs).filter (fun pair => keep pair.1) =
      patch.foldl change (pairs.filter fun pair => keep pair.1) := by
  induction patch generalizing pairs with
  | nil => rfl
  | cons entry rest ih =>
      rw [List.foldl_cons, List.foldl_cons, ih fun other member =>
        kept other (List.mem_cons_of_mem _ member), change_of_kept (kept entry List.mem_cons_self)]

theorem get_change_of_ne {key : String} {entry : String × Option String} (other : entry.1 ≠ key)
    (pairs : List (String × String)) :
    SearchParams.get key (change pairs entry) = SearchParams.get key pairs := by
  have own : decide (key = key) = true := decide_eq_true rfl
  have dropped := @change_of_dropped (fun name => decide (name = key)) entry
    (decide_eq_false other) pairs
  have before := @SearchParams.get_filter key (fun name => decide (name = key)) own pairs
  have after := @SearchParams.get_filter key (fun name => decide (name = key)) own
    (change pairs entry)
  rw [← after, dropped, before]

/-- A patch leaves a parameter it does not name. -/
theorem get_changes_of_ne {key : String} {patch : List (String × Option String)}
    (other : ∀ entry ∈ patch, entry.1 ≠ key) (pairs : List (String × String)) :
    SearchParams.get key (patch.foldl change pairs) = SearchParams.get key pairs := by
  induction patch generalizing pairs with
  | nil => rfl
  | cons entry rest ih =>
      rw [List.foldl_cons, ih fun later member => other later (List.mem_cons_of_mem _ member),
        get_change_of_ne (other entry List.mem_cons_self)]

/-! ### What a field keeps -/

def Field.written (field : Field) (value : UrlValue) : Option String :=
  (field.entry numberText value).2.filter (· ≠ "")

/-- Values the URL can hold: of the field's kind and among its options, no empty text but the
default, and numbers whose text reads back. -/
def Field.Holds (field : Field) (value : UrlValue) : Prop :=
  value = field.fallback ∨
    (match field.fallback, value with
      | .text _, .text value => value ≠ ""
      | .flag _, .flag _ => True
      | .number _, .number value => trim (numberText value).toList ≠ [] ∧
          toNumber (numberText value) = some value
      | _, _ => False) ∧ ∀ options ∈ field.options, value ∈ options

def lastSet (events : List (Event ι)) (i : ι) : Option UrlValue :=
  events.foldl (fun last event =>
    match event with
    | .sets j value => if j = i then some value else last
    | _ => last) none

def patchesOf (events : List (Event ι)) : List (String × Option String) :=
  events.flatMap fun event =>
    match event with
    | .patches patch => patch
    | _ => []

/-- Events on the page, whose other writers have parameters of their own. -/
def Event.OnPage (fields : ι → Field) : Event ι → Prop
  | .leaves _ => False
  | .patches patch => ∀ entry ∈ patch, ∀ i, entry.1 ≠ (fields i).key
  | _ => True

def Field.expected (field : Field) (first : Option String) : Option UrlValue → Option String
  | none => first
  | some value => field.written numberText value

structure FieldKept (field : Field) (first : Option String) (pairs : List (String × String))
    (slot : Slot) (last : Option UrlValue) : Prop where
  draft : ∀ value ∈ slot.draft, last = some value
  /-- A value that is not written yet is shown, and on its way. -/
  pending : ∀ value ∈ slot.timer, slot.draft = some value
  written : slot.timer = none →
    SearchParams.get field.key pairs = field.expected numberText first last

/-- Whatever the fields and the other writers of a page did, in whatever order the timers rang. -/
structure PageKept (start : Location) (events : List (Event ι)) (state : State ι) : Prop where
  pathname : state.location.pathname = start.pathname
  hash : state.location.hash = start.hash
  each : ∀ i, FieldKept numberText (fields i)
    (SearchParams.get (fields i).key (params start.search)) (params state.location.search)
    (state.slots i) (lastSet events i)
  /-- The other parameters are as if no field had been touched. -/
  others : ∀ keep : String → Bool, (∀ i, keep (fields i).key = false) →
    (∀ entry ∈ patchesOf events, keep entry.1 = true) →
      (params state.location.search).filter (fun pair => keep pair.1) =
        (patchesOf events).foldl change ((params start.search).filter fun pair => keep pair.1)

theorem lastSet_snoc (events : List (Event ι)) (event : Event ι) (i : ι) :
    lastSet (events ++ [event]) i =
      match event with
      | .sets j value => if j = i then some value else lastSet events i
      | _ => lastSet events i := by
  rw [lastSet, List.foldl_append]
  cases event <;> rfl

theorem patchesOf_snoc (events : List (Event ι)) (event : Event ι) :
    patchesOf (events ++ [event]) = patchesOf events ++
      match event with
      | .patches patch => patch
      | _ => [] := by
  rw [patchesOf, List.flatMap_append, List.flatMap_singleton]
  rfl

section Steps

variable {numberText} {pathname} {fields}
variable {start : Location} {events : List (Event ι)} {state : State ι}

/-- What changes neither the URL nor what a field waits for. -/
theorem PageKept.quiet (kept : PageKept numberText fields start events state) {event : Event ι}
    {next : State ι} (location : next.location = state.location)
    (timer : ∀ i, (next.slots i).timer = (state.slots i).timer)
    (draft : ∀ i, ∀ value ∈ (next.slots i).draft, (state.slots i).draft = some value)
    (waiting : ∀ i, ∀ value ∈ (state.slots i).timer,
      (state.slots i).draft = some value → (next.slots i).draft = some value)
    (unset : ∀ i, lastSet (events ++ [event]) i = lastSet events i)
    (unpatched : patchesOf (events ++ [event]) = patchesOf events) :
    PageKept numberText fields start (events ++ [event]) next := by
  refine ⟨location ▸ kept.pathname, location ▸ kept.hash, fun i => ?_, ?_⟩
  · have field := kept.each i
    rw [unset, location]
    refine ⟨fun value present => field.draft value (draft i value present), fun value present => ?_,
      fun idle => field.written ((timer i).symm.trans idle)⟩
    rw [timer] at present
    exact waiting i value present (field.pending value present)
  · rw [unpatched, location]
    exact kept.others

theorem PageKept.writes (distinct : ∀ i j, (fields i).key = (fields j).key → i = j)
    (here : start.pathname = pathname)
    (kept : PageKept numberText fields start events state) {event : Event ι} {next : State ι}
    {i : ι} {value : UrlValue}
    (location : next.location =
      searchPatch pathname [(fields i).entry numberText value] state.location)
    (timer : (next.slots i).timer = none) (draft : ∀ other ∈ (next.slots i).draft, other = value)
    (rest : ∀ j, j ≠ i → next.slots j = state.slots j)
    (last : lastSet (events ++ [event]) i = some value)
    (unset : ∀ j, j ≠ i → lastSet (events ++ [event]) j = lastSet events j)
    (unpatched : patchesOf (events ++ [event]) = patchesOf events) :
    PageKept numberText fields start (events ++ [event]) next := by
  have onPage : state.location.pathname = pathname := kept.pathname.trans here
  have same := searchPatch_kept pathname [(fields i).entry numberText value] state.location
  have landed := params_searchPatch onPage [(fields i).entry numberText value]
  rw [List.foldl_cons, List.foldl_nil] at landed
  rw [← location] at same landed
  refine ⟨same.1.trans kept.pathname, same.2.trans kept.hash, fun j => ?_,
    fun keep dropped known => ?_⟩
  · rw [landed]
    by_cases own : j = i
    · subst own
      rw [last]
      refine ⟨fun other present => by rw [draft other present], fun other present => ?_,
        fun _ => ?_⟩
      · rw [timer] at present
        cases present
      · exact get_change (params state.location.search) ((fields j).entry numberText value)
    · rw [unset j own, rest j own]
      have field := kept.each j
      refine ⟨field.draft, field.pending, fun idle => ?_⟩
      rw [get_change_of_ne fun clash => own (distinct i j clash).symm]
      exact field.written idle
  · rw [landed, change_of_dropped (dropped i), unpatched]
    rw [unpatched] at known
    exact kept.others keep dropped known

theorem PageKept.sets (distinct : ∀ i j, (fields i).key = (fields j).key → i = j)
    (here : start.pathname = pathname)
    (kept : PageKept numberText fields start events state) (i : ι) (value : UrlValue) :
    PageKept numberText fields start (events ++ [.sets i value])
      (step numberText pathname fields state (.sets i value)) := by
  have last : lastSet (events ++ [.sets i value]) i = some value :=
    (lastSet_snoc events (.sets i value) i).trans (if_pos rfl)
  have unset : ∀ j, j ≠ i → lastSet (events ++ [.sets i value]) j = lastSet events j :=
    fun j other => (lastSet_snoc events (.sets i value) j).trans (if_neg (Ne.symm other))
  have unpatched : patchesOf (events ++ [.sets i value]) = patchesOf events := by
    rw [patchesOf_snoc, List.append_nil]
  rw [step]
  by_cases atOnce : (fields i).debounceMs = 0
  · simp only [if_pos atOnce]
    refine kept.writes distinct here rfl ?_ ?_ ?_ last unset unpatched
    · simp [State.write, State.put]
    · simp [State.write, State.put]
    · intro j other
      simp [State.write, State.put, other]
  · simp only [if_neg atOnce]
    refine ⟨kept.pathname, kept.hash, fun j => ?_, ?_⟩
    · by_cases own : j = i
      · subst own
        rw [last]
        refine ⟨?_, ?_, ?_⟩
        · intro other present
          simpa [State.put, eq_comm] using present
        · intro other present
          simpa [State.put, eq_comm] using present
        · intro idle
          simp [State.put] at idle
      · rw [unset j own]
        have field := kept.each j
        have slot : (((state.put i { state.slots i with draft := some value }).put i
            { (state.put i { state.slots i with draft := some value }).slots i with
              timer := some value }).slots j) = state.slots j := by
          simp [State.put, own]
        rw [slot]
        exact field
    · rw [unpatched]
      exact kept.others

theorem PageKept.fires (distinct : ∀ i j, (fields i).key = (fields j).key → i = j)
    (here : start.pathname = pathname)
    (kept : PageKept numberText fields start events state) (i : ι) :
    PageKept numberText fields start (events ++ [.fires i])
      (step numberText pathname fields state (.fires i)) := by
  have unset : ∀ j, lastSet (events ++ [.fires i]) j = lastSet events j :=
    lastSet_snoc events (.fires i)
  have unpatched : patchesOf (events ++ [.fires i]) = patchesOf events := by
    rw [patchesOf_snoc, List.append_nil]
  rw [step]
  cases waiting : (state.slots i).timer with
  | none =>
      exact kept.quiet rfl (fun _ => rfl) (fun _ _ present => present) (fun _ _ _ shown => shown)
        unset unpatched
  | some value =>
      have drafted := (kept.each i).pending value waiting
      have last := (kept.each i).draft value drafted
      refine kept.writes distinct here rfl ?_ ?_ ?_ ((unset i).trans last) (fun j _ => unset j)
        unpatched
      · simp [State.write]
      · intro other present
        simp only [State.write, Function.update_self, drafted] at present
        exact (Option.some.inj present).symm
      · intro j other
        simp [State.write, other]

theorem PageKept.patches (here : start.pathname = pathname)
    (kept : PageKept numberText fields start events state) {patch : List (String × Option String)}
    (foreign : ∀ entry ∈ patch, ∀ i, entry.1 ≠ (fields i).key) :
    PageKept numberText fields start (events ++ [.patches patch])
      (step numberText pathname fields state (.patches patch)) := by
  have onPage : state.location.pathname = pathname := kept.pathname.trans here
  have same := searchPatch_kept pathname patch state.location
  have landed := params_searchPatch onPage patch
  refine ⟨same.1.trans kept.pathname, same.2.trans kept.hash, fun i => ?_,
    fun keep dropped known => ?_⟩
  · have field := kept.each i
    rw [lastSet_snoc, step]
    simp only
    rw [landed]
    refine ⟨field.draft, field.pending, fun idle => ?_⟩
    rw [get_changes_of_ne fun entry member => foreign entry member i]
    exact field.written idle
  · rw [patchesOf_snoc] at known ⊢
    rw [step]
    simp only
    rw [landed, List.foldl_append,
      changes_of_kept fun entry member => known entry (List.mem_append_right _ member),
      kept.others keep dropped fun entry member => known entry (List.mem_append_left _ member)]

theorem PageKept.settles (kept : PageKept numberText fields start events state) (i : ι) :
    PageKept numberText fields start (events ++ [.settles i])
      (step numberText pathname fields state (.settles i)) := by
  have unset : ∀ j, lastSet (events ++ [.settles i]) j = lastSet events j :=
    lastSet_snoc events (.settles i)
  have unpatched : patchesOf (events ++ [.settles i]) = patchesOf events := by
    rw [patchesOf_snoc, List.append_nil]
  have same : PageKept numberText fields start (events ++ [.settles i]) state :=
    kept.quiet rfl (fun _ => rfl) (fun _ _ present => present) (fun _ _ _ shown => shown) unset
      unpatched
  rw [step]
  split
  · exact same
  · next value drawn =>
      split
      · next agreed =>
          refine kept.quiet rfl (fun j => ?_) (fun j other present => ?_)
            (fun j other waiting shown => ?_) unset unpatched
          · by_cases own : j = i
            · subst own
              simp [State.put]
            · simp [State.put, own]
          · by_cases own : j = i
            · subst own
              simp [State.put] at present
            · simpa [State.put, own] using present
          · by_cases own : j = i
            · subst own
              rw [agreed.1] at waiting
              cases waiting
            · simpa [State.put, own] using shown
      · exact same

theorem PageKept.step (distinct : ∀ i j, (fields i).key = (fields j).key → i = j)
    (here : start.pathname = pathname)
    (kept : PageKept numberText fields start events state) {event : Event ι}
    (onPage : event.OnPage fields) :
    PageKept numberText fields start (events ++ [event])
      (step numberText pathname fields state event) := by
  cases event with
  | sets i value => exact kept.sets distinct here i value
  | fires i => exact kept.fires distinct here i
  | patches patch => exact kept.patches here onPage
  | draws fresh =>
      refine kept.quiet rfl (fun _ => rfl) (fun _ _ present => present) (fun _ _ _ shown => shown)
        (lastSet_snoc events (.draws fresh)) ?_
      rw [patchesOf_snoc, List.append_nil]
  | settles i => exact kept.settles i
  | leaves location => exact onPage.elim

end Steps

end ZabbixPortal.Web.UrlState
