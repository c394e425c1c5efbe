import ZabbixPortal.Services.SharedCacheProperties
import ZabbixPortal.Sli.MaintenanceProperties

/-! Two portals over two Zabbix states that differ only in the values of interface items, serving
the same requests: what viewers are answered is the same, but for the capacity report. -/

set_option autoImplicit false

namespace ZabbixPortal.Services

open Foundation Core
open Security (Role)

theorem areIds_of_parseItemIds {raw : Option String} {ids : List String}
    (read : parseItemIds raw = .ok ids) : AreIds ids := by
  unfold parseItemIds at read
  dsimp only at read
  split at read
  · cases read
  · next nonempty =>
      split at read
      · cases read
      · exact areIds_of_requireIds nonempty read

/-! ## Routes -/

section Routes

variable {γ β : Type} {around : Surroundings γ β} {left right : ZabbixState} {now : ℤ} {role : Role}

def SameFor (role : Role) (a b : Content γ β) : Prop := hidesNetwork role = true → a = b

/-! ### Nothing makes a state valid again -/

section Persists

variable (around) (now) (state : ZabbixState)

theorem persists_fetchLatestPage (q : LatestPageQuery) :
    (fetchLatestPage around state now q).Persists StaysWithin := by
  refine (persists_readCached _ state).bind fun content => ?_
  cases content with
  | latestIds all =>
      dsimp only
      split
      · exact .throw _
      · exact .pure _
  | _ => exact .throw _

theorem persists_hasNetworkItem (ids : List String) :
    (hasNetworkItem around state now ids : Route γ β Bool).Persists StaysWithin := by
  unfold hasNetworkItem
  dsimp only
  split
  · exact .pure _
  · refine (persists_readCached _ state).bind fun content => ?_
    cases content with
    | itemKeys rows => exact .pure _
    | _ => exact .throw _

theorem persists_networkItemsDenied (role : Role) (ids : List String) :
    (networkItemsDenied around state now role ids : Route γ β (Option String)).Persists
      StaysWithin := by
  unfold networkItemsDenied
  split
  · exact .pure _
  · refine (persists_hasNetworkItem around now state ids).bind fun denied => ?_
    cases denied with
    | true => exact .pure _
    | false => exact .pure _

end Persists

theorem lockstep_serveItems (states : SameButInterfaces left right) (q : ItemsParams) :
    Lockstep StaysWithin (Related left.items) (SameFor role) (serveItems around left now role q)
      (serveItems around right now role q) := by
  unfold serveItems
  cases parseItemQuery q with
  | error refusal => exact .throw refusal
  | ok query =>
      refine Lockstep.bind (lockstep_readCached states trivial) ?_ ?_ ?_
      · rintro (_ | _) <;> first | exact .pure _ | exact .throw _
      · rintro (_ | _) <;> first | exact .pure _ | exact .throw _
      · intro a b contents
        cases contents with
        | items cut =>
            refine .pure fun hidden => ?_
            rw [if_pos hidden, if_pos hidden, cut]
        | _ => exact .throw _

/-! ### Latest data -/

/-- Details of ids that are not interfaces'. -/
theorem latestDetails_eq (states : SameButInterfaces left right) {ids : List String}
    (plain : ∀ id ∈ ids, ∃ item ∈ left.items, item.itemid = id ∧ isNetworkKey item.key_ = false) :
    latestDetails around left now ids = latestDetails around right now ids := by
  unfold latestDetails
  dsimp only
  rw [← states.items]
  refine List.map_congr_left fun found member => ?_
  obtain ⟨id, inIds, inMap⟩ := List.mem_filterMap.mp member
  have entry := OrderedMap.mem_of_mem_ofList ((OrderedMap.get?_eq_some_iff _ _ _).mp inMap)
  obtain ⟨_, _, same⟩ := List.mem_map.mp entry
  cases same
  obtain ⟨item, inItems, sameId, free⟩ := plain _ inIds
  rw [latestRow, latestRow, ← sameId, states.last item inItems free]

theorem hide_of_key {q : LatestPageQuery} (last : q.request.key.toList.getLast? = some 'v') :
    q.hide = true := by
  unfold LatestPageQuery.request at last
  cases hide : q.hide with
  | true => rfl
  | false =>
      rw [hide, String.toList_append, List.getLast?_append] at last
      cases last

theorem key_of_hide {q : LatestPageQuery} (hide : q.hide = true) :
    q.request.key.toList.getLast? = some 'v' := by
  unfold LatestPageQuery.request
  rw [hide, if_pos rfl, String.toList_append, List.getLast?_append]
  rfl

theorem lockstep_fetchLatestPage (states : SameButInterfaces left right) (q : LatestPageQuery) :
    Lockstep StaysWithin (Related left.items) (ContentAlike left.items q.request.key)
      (fetchLatestPage around left now q) (fetchLatestPage around right now q) := by
  refine Lockstep.bind (lockstep_readCached states trivial) ?_ ?_ ?_
  · intro content
    cases content with
    | latestIds all =>
        dsimp only
        split
        · exact .throw _
        · exact .pure _
    | _ => exact .throw _
  · intro content
    cases content with
    | latestIds all =>
        dsimp only
        split
        · exact .throw _
        · exact .pure _
    | _ => exact .throw _
  · intro a b contents
    cases contents with
    | @latestIds all flagged =>
        dsimp only
        rw [← states.reachable]
        split
        · exact .throw _
        · refine .pure (.latestPage fun last => ?_)
          have hide := hide_of_key last
          have plain : ∀ id ∈ q.slice all,
              ∃ item ∈ left.items, item.itemid = id ∧ isNetworkKey item.key_ = false := by
            intro id member
            have inIds := List.mem_of_mem_drop (List.mem_of_mem_take member)
            rw [LatestPageQuery.ids, if_pos hide] at inIds
            obtain ⟨row, kept, rfl⟩ := List.mem_map.mp inIds
            obtain ⟨inAll, free⟩ := List.mem_filter.mp kept
            exact flagged row inAll (by simpa using free)
          rw [latestDetails_eq states plain]
    | _ => exact .throw _

theorem lockstep_getLatestPage (states : SameButInterfaces left right) {q : LatestPageQuery}
    (hides : hidesNetwork role = true → q.hide = true) :
    Lockstep StaysWithin (Related left.items) (SameFor role) (getLatestPage around left now q)
      (getLatestPage around right now q) := by
  refine Lockstep.bind (lockstep_cached (by simp) (lockstep_fetchLatestPage states q)) ?_ ?_ ?_
  · rintro (_ | _) <;> first | exact .pure _ | exact .throw _
  · rintro (_ | _) <;> first | exact .pure _ | exact .throw _
  · intro a b contents
    cases contents with
    | latestPage cut =>
        exact .pure fun hidden => congrArg Content.latestPage (cut (key_of_hide (hides hidden)))
    | _ => exact .throw _

theorem lockstep_getLatestItems (states : SameButInterfaces left right) (filter : LatestFilter)
    (text : Option String) :
    Lockstep StaysWithin (Related left.items) (SameFor role)
      (getLatestItems around left now filter text (hidesNetwork role))
      (getLatestItems around right now filter text (hidesNetwork role)) := by
  refine Lockstep.bind (lockstep_readCached states trivial) ?_ ?_ ?_
  · rintro (_ | _) <;> first | exact .pure _ | exact .throw _
  · rintro (_ | _) <;> first | exact .pure _ | exact .throw _
  · intro a b contents
    cases contents with
    | latest truncated cut =>
        refine .pure fun hidden => ?_
        rw [if_pos hidden, if_pos hidden, cut, truncated]
    | _ => exact .throw _

theorem lockstep_serveLatest (states : SameButInterfaces left right) (q : LatestParams) :
    Lockstep StaysWithin (Related left.items) (SameFor role) (serveLatest around left now role q)
      (serveLatest around right now role q) := by
  unfold serveLatest
  dsimp only
  split
  · split
    · exact .pure fun _ => rfl
    · exact .pure fun _ => rfl
  · cases parseLatestFilter q with
    | error refusal => exact .throw refusal
    | ok filter =>
        dsimp only
        split
        · exact lockstep_getLatestPage states id
        · exact lockstep_getLatestItems states filter q.search

/-! ### Graphs -/

/-- Both lookups say the same, and the truth when they say no. -/
theorem lockstep_hasNetworkItem (states : SameButInterfaces left right) {ids : List String}
    (valid : AreIds ids) :
    Lockstep StaysWithin (Related left.items)
      (fun a b => a = b ∧ (a = false → NoInterface left.items ids))
      (hasNetworkItem around left now ids : Route γ β Bool)
      (hasNetworkItem around right now ids) := by
  have member : ∀ id, id ∈ sortBy compareCodeUnits ids.eraseDups ↔ id ∈ ids := fun id =>
    (mem_sortBy _ _ _).trans List.mem_eraseDups
  have sorted : AreIds (sortBy compareCodeUnits ids.eraseDups) := by
    refine ⟨fun empty => ?_, fun id inSorted => valid.2 id ((member id).mp inSorted)⟩
    obtain ⟨id, inIds⟩ := List.exists_mem_of_ne_nil ids valid.1
    have inSorted := (member id).mpr inIds
    rw [empty] at inSorted
    cases inSorted
  unfold hasNetworkItem
  dsimp only
  rw [if_neg sorted.1, if_neg sorted.1]
  refine Lockstep.bind (lockstep_readCached states sorted) ?_ ?_ ?_
  · rintro (_ | _) <;> first | exact .pure _ | exact .throw _
  · rintro (_ | _) <;> first | exact .pure _ | exact .throw _
  · intro a b contents
    cases contents with
    | @itemKeys rows exact' =>
        refine .pure ⟨rfl, fun nothing item inItems wanted => ?_⟩
        have inRows := exact' _ sorted rfl item inItems ((member _).mpr wanted)
        simpa using List.any_eq_false.mp nothing _ inRows
    | _ => exact .throw _

theorem lockstep_networkItemsDenied (states : SameButInterfaces left right) {ids : List String}
    (valid : AreIds ids) :
    Lockstep StaysWithin (Related left.items)
      (fun a b => a = b ∧ (a = none → hidesNetwork role = true → NoInterface left.items ids))
      (networkItemsDenied around left now role ids : Route γ β (Option String))
      (networkItemsDenied around right now role ids) := by
  unfold networkItemsDenied
  cases hides : hidesNetwork role with
  | false => exact .pure ⟨rfl, fun _ hidden => nomatch hidden⟩
  | true =>
      rw [if_neg (by decide), if_neg (by decide)]
      refine Lockstep.bind (lockstep_hasNetworkItem states valid) ?_ ?_ ?_
      · rintro (_ | _) <;> exact .pure _
      · rintro (_ | _) <;> exact .pure _
      · rintro a b ⟨rfl, truth⟩
        cases a with
        | true => exact .pure ⟨rfl, fun nothing => nomatch nothing⟩
        | false => exact .pure ⟨rfl, fun _ _ => truth rfl⟩

theorem persists_readGraph (ids : List String) (q : GraphParams) (state : ZabbixState) :
    (readGraph around state now ids q : Route γ β (Content γ β)).Persists StaysWithin := by
  unfold readGraph
  cases parseRange around q (toSeconds now) with
  | error refusal => exact .throw refusal
  | ok range =>
      refine (persists_readCached _ state).bind ?_
      rintro (_ | _) <;> first | exact .pure _ | exact .throw _

theorem lockstep_readGraph (states : SameButInterfaces left right) {ids : List String}
    (valid : AreIds ids) (q : GraphParams)
    (plain : hidesNetwork role = true → NoInterface left.items ids) :
    Lockstep StaysWithin (Related left.items) (SameFor role) (readGraph around left now ids q)
      (readGraph around right now ids q) := by
  unfold readGraph
  cases parseRange around q (toSeconds now) with
  | error refusal => exact .throw refusal
  | ok range =>
      have wellFormed : (KeyedRead.graph ids range.1 range.2 (intParam q.points 1500 200 3000) :
          KeyedRead β).WellFormed := valid
      refine Lockstep.bind (lockstep_readCached states wellFormed) ?_ ?_ ?_
      · rintro (_ | _) <;> first | exact .pure _ | exact .throw _
      · rintro (_ | _) <;> first | exact .pure _ | exact .throw _
      · intro a b contents
        cases contents with
        | graph drawn =>
            exact .pure fun hidden =>
              congrArg Content.graph (drawn ids _ _ _ valid rfl (plain hidden))
        | _ => exact .throw _

theorem lockstep_serveGraph (states : SameButInterfaces left right) (q : GraphParams) :
    Lockstep StaysWithin (Related left.items) (SameFor role) (serveGraph around left now role q)
      (serveGraph around right now role q) := by
  unfold serveGraph
  cases parsed : parseItemIds q.itemids with
  | error refusal => exact .throw refusal
  | ok ids =>
      have valid := areIds_of_parseItemIds parsed
      refine Lockstep.bind (lockstep_networkItemsDenied states valid) ?_ ?_ ?_
      · rintro (_ | _)
        · exact persists_readGraph ids q left
        · exact .throw _
      · rintro (_ | _)
        · exact persists_readGraph ids q right
        · exact .throw _
      · rintro a b ⟨rfl, plain⟩
        cases a with
        | some message => exact .throw _
        | none => exact lockstep_readGraph states valid q (plain rfl)

/-! ### The capacity report and the other routes -/

theorem lockstep_serveCapacity (states : SameButInterfaces left right) (q : CapacityParams) :
    Lockstep StaysWithin (Related left.items) (fun _ _ => True)
      (serveCapacity around left now q : Route γ β (Content γ β))
      (serveCapacity around right now q) := by
  refine Lockstep.bind (lockstep_readCached states trivial) ?_ ?_ ?_
  · rintro (_ | _) <;> first | exact .pure _ | exact .throw _
  · rintro (_ | _) <;> first | exact .pure _ | exact .throw _
  · intro a b contents
    cases contents with
    | capacity => exact .pure trivial
    | _ => exact .throw _

end Routes

/-! ## Runs -/

section Runs

variable {γ β : Type} {around : Surroundings γ β} {left right : ZabbixState} {now : ℤ}

theorem persists_serve (state : ZabbixState) (role : Role) (asked : Asked β) :
    (ItemPortal.serve around state now role asked : Route γ β (Content γ β)).Persists
      StaysWithin := by
  cases asked with
  | items query =>
      change (serveItems around state now role query).Persists StaysWithin
      unfold serveItems
      cases parseItemQuery query with
      | error refusal => exact .throw refusal
      | ok query =>
          refine (persists_readCached _ state).bind ?_
          rintro (_ | _) <;> first | exact .pure _ | exact .throw _
  | latest query =>
      change (serveLatest around state now role query).Persists StaysWithin
      unfold serveLatest
      dsimp only
      split
      · split
        · exact .pure _
        · exact .pure _
      · cases parseLatestFilter query with
        | error refusal => exact .throw refusal
        | ok filter =>
            dsimp only
            split
            · refine (persists_cached (persists_fetchLatestPage around now state _)).bind ?_
              rintro (_ | _) <;> first | exact .pure _ | exact .throw _
            · refine (persists_readCached _ state).bind ?_
              rintro (_ | _) <;> first | exact .pure _ | exact .throw _
  | graph query =>
      change (serveGraph around state now role query).Persists StaysWithin
      unfold serveGraph
      cases parseItemIds query.itemids with
      | error refusal => exact .throw refusal
      | ok ids =>
          refine (persists_networkItemsDenied around now state role ids).bind ?_
          rintro (_ | _)
          · exact persists_readGraph ids query state
          · exact .throw _
  | capacity query =>
      refine (persists_readCached _ state).bind ?_
      rintro (_ | _) <;> first | exact .pure _ | exact .throw _
  | elsewhere read => exact persists_readCached _ state

/-- A viewer is answered the same, unless it is the capacity report that is asked for, or another
route. -/
theorem lockstep_serve (states : SameButInterfaces left right) (role : Role) (asked : Asked β)
    (other : ∀ query, asked = .capacity query → hidesNetwork role = false) :
    Lockstep StaysWithin (Related left.items)
      (fun a b => asked.isItemRoute = true → SameFor role a b)
      (ItemPortal.serve around left now role asked : Route γ β (Content γ β))
      (ItemPortal.serve around right now role asked) := by
  cases asked with
  | items query => exact Lockstep.weaken (lockstep_serveItems states query) fun a b same _ => same
  | latest query => exact Lockstep.weaken (lockstep_serveLatest states query) fun a b same _ => same
  | graph query => exact Lockstep.weaken (lockstep_serveGraph states query) fun a b same _ => same
  | capacity query =>
      have operator := other query rfl
      refine Lockstep.weaken (lockstep_serveCapacity states query) fun a b _ _ hidden => ?_
      rw [operator] at hidden
      cases hidden
  | elsewhere read =>
      exact Lockstep.weaken (lockstep_readCached states trivial) fun a b _ item => nomatch item

theorem staysWithin_of_refreshed {state : ZabbixState} {key : String} {shared : SharedCache γ β}
    (after : StaysWithin (refreshed around state now key shared)) : StaysWithin shared := by
  unfold refreshed at after
  split at after
  · exact after
  · split at after
    · exact (staysWithin_of_keep after).1
    · exact after

theorem Related.refreshed (states : SameButInterfaces left right) {shared shared' : SharedCache γ β}
    (related : Related left.items shared shared') (key : String)
    (after : StaysWithin (refreshed around left now key shared))
    (after' : StaysWithin (refreshed around right now key shared')) :
    Related left.items (refreshed around left now key shared)
      (refreshed around right now key shared') := by
  unfold Services.refreshed at after after' ⊢
  rw [← related.refreshing] at after' ⊢
  cases found : shared.refreshing.find? fun read => decide ((read.request 0).key = key) with
  | none => exact related
  | some read =>
      have isKey : (read.request (toSeconds now)).key = key := by
        rw [key_request read _ 0]
        simpa using List.find?_some found
      have fetched := @fetchRead_alike _ _ around left right (toSeconds now) states read
        (related.wellFormed read (List.mem_of_find?_eq_some found))
      rw [found] at after after'
      dsimp only at after after' ⊢
      generalize fetchRead around left (toSeconds now) read = first at fetched after ⊢
      generalize fetchRead around right (toSeconds now) read = second at fetched after' ⊢
      cases fetched with
      | error refusal => exact related.landed key
      | ok values => exact (related.landed key).keep values after after'

theorem withinBytes_wroteBack (shared : SharedCache γ β) (now : ℤ) :
    (shared.wroteBack now).withinBytes = shared.withinBytes := by
  unfold SharedCache.wroteBack
  dsimp only

theorem Related.wroteBack {items : List ItemConfig} {shared shared' : SharedCache γ β}
    (related : Related items shared shared') (now : ℤ) :
    Related items (shared.wroteBack now) (shared'.wroteBack now) := by
  have swept : ∀ (starts : List String) (cache cache' : Cache (Content γ β)),
      cache.Alike (ContentAlike items) cache' →
      (starts.foldl (fun cache start => cache.invalidate start (some WRITE_HOLD_MS) now)
        cache).Alike (ContentAlike items)
        (starts.foldl (fun cache start => cache.invalidate start (some WRITE_HOLD_MS) now)
          cache') := by
    intro starts
    induction starts with
    | nil => exact fun _ _ same => same
    | cons start rest ih =>
        exact fun _ _ same => ih _ _ (same.invalidate start (some WRITE_HOLD_MS) now)
  have accounts : ∀ cache : Cache (Content γ β), cache.Accounts → (STALE_AFTER_WRITE.foldl
      (fun cache start => cache.invalidate start (some WRITE_HOLD_MS) now) cache).Accounts :=
    fun cache before => List.foldlRecOn _ _ before fun _ kept start _ => kept.invalidate start _ now
  have within : ∀ cache : Cache (Content γ β), cache.WithinCaps → (STALE_AFTER_WRITE.foldl
      (fun cache start => cache.invalidate start (some WRITE_HOLD_MS) now) cache).WithinCaps :=
    fun cache before => List.foldlRecOn _ _ before fun _ kept start _ => kept.invalidate start _ now
  refine ⟨swept _ _ _ related.cache, accounts _ related.accounts, accounts _ related.accounts',
    within _ related.within, within _ related.within', ?_, ?_⟩
  · rw [SharedCache.wroteBack, SharedCache.wroteBack, related.refreshing]
  · exact fun read member => related.wellFormed read (List.mem_of_mem_filter member)

def asksCapacityAsViewer : PortalEvent β → Bool
  | .request .viewer (.capacity _) => true
  | _ => false

/-- Answers to one request, which for a viewer of the item routes are the same. -/
structure SameAnswer (a b : Answered γ β) : Prop where
  role : a.role = b.role
  asked : a.asked = b.asked
  reply : ResultsAlike (fun x y => a.asked.isItemRoute = true → SameFor a.role x y) a.reply b.reply

/-- What one turn keeps. -/
theorem step_related (states : SameButInterfaces left right) {portal portal' : ItemPortal γ β}
    {turn : ℤ × PortalEvent β} (allowed : asksCapacityAsViewer turn.2 = false)
    (before : StaysWithin portal.shared → StaysWithin portal'.shared →
      Related left.items portal.shared portal'.shared ∧
        List.Forall₂ SameAnswer portal.log portal'.log)
    (after : StaysWithin (portal.step around left turn).shared)
    (after' : StaysWithin (portal'.step around right turn).shared) :
    Related left.items (portal.step around left turn).shared
        (portal'.step around right turn).shared ∧
      List.Forall₂ SameAnswer (portal.step around left turn).log
        (portal'.step around right turn).log := by
  obtain ⟨now, event⟩ := turn
  cases event with
  | request role asked =>
      obtain ⟨related, answers⟩ := before (persists_serve left role asked _ after)
        (persists_serve right role asked _ after')
      have operator : ∀ query, asked = .capacity query → hidesNetwork role = false := by
        rintro query rfl
        cases role with
        | viewer => cases allowed
        | operator => rfl
        | admin => rfl
      have served := lockstep_serve states role asked operator _ _ related after after'
      exact ⟨served.1, List.rel_append answers (.cons ⟨rfl, rfl, served.2⟩ .nil)⟩
  | refreshed key =>
      obtain ⟨related, answers⟩ := before (staysWithin_of_refreshed after)
        (staysWithin_of_refreshed after')
      exact ⟨related.refreshed states key after after', answers⟩
  | wroteBack =>
      have kept : StaysWithin portal.shared := (withinBytes_wroteBack _ now).symm.trans after
      have kept' : StaysWithin portal'.shared := (withinBytes_wroteBack _ now).symm.trans after'
      obtain ⟨related, answers⟩ := before kept kept'
      dsimp only [ItemPortal.step]
      exact ⟨related.wroteBack now, answers⟩

theorem run_related (states : SameButInterfaces left right) (turns : List (ℤ × PortalEvent β))
    (allowed : ∀ turn ∈ turns, asksCapacityAsViewer turn.2 = false)
    (after : StaysWithin (ItemPortal.run around left turns).shared)
    (after' : StaysWithin (ItemPortal.run around right turns).shared) :
    Related left.items (ItemPortal.run around left turns).shared
        (ItemPortal.run around right turns).shared ∧
      List.Forall₂ SameAnswer (ItemPortal.run around left turns).log
        (ItemPortal.run around right turns).log := by
  induction turns using List.reverseRecOn with
  | nil => exact ⟨.empty, .nil⟩
  | append_singleton turns turn ih =>
      have earlier := ih fun other member => allowed other (List.mem_append_left _ member)
      rw [ItemPortal.run, List.foldl_append] at after after' ⊢
      rw [ItemPortal.run, List.foldl_append]
      exact step_related states (allowed turn (by simp)) earlier after after'

theorem viewerAnswers_eq {portal portal' : ItemPortal γ β}
    (answers : List.Forall₂ SameAnswer portal.log portal'.log) :
    portal.viewerAnswers = portal'.viewerAnswers := by
  unfold ItemPortal.viewerAnswers
  generalize portal.log = log, portal'.log = log' at answers ⊢
  induction answers with
  | nil => rfl
  | @cons a b log log' same _ ih =>
      rw [List.filter_cons, List.filter_cons, ← same.role, ← same.asked]
      split
      · next own =>
          rw [Bool.and_eq_true, decide_eq_true_iff] at own
          have reply : a.reply = b.reply := ResultsAlike.eq
            (same.reply.mono fun x y alike => alike own.2 (by rw [own.1]; rfl))
          rw [List.map_cons, List.map_cons, reply, ih]
      · exact ih

end Runs

/-! ## What viewers are answered -/

/-- Viewers learn nothing of interface data as long as none of them asks for the capacity report,
and no entry of the cache has to go for its bytes. -/
theorem viewers_learn_nothing {γ β : Type} (around : Surroundings γ β) (left right : ZabbixState)
    (states : SameButInterfaces left right) (turns : List (ℤ × PortalEvent β))
    (allowed : ∀ turn ∈ turns, asksCapacityAsViewer turn.2 = false)
    (within : (ItemPortal.run around left turns).shared.withinBytes = true)
    (within' : (ItemPortal.run around right turns).shared.withinBytes = true) :
    (ItemPortal.run around left turns).viewerAnswers =
      (ItemPortal.run around right turns).viewerAnswers :=
  viewerAnswers_eq (run_related states turns allowed within within').2

def plainSurroundings : Surroundings Unit Unit where
  search :=
    { contains := fun text needle => (Pattern.word (· = ·) needle.toList).test text.toList
      starts := startsWith
      byName := fun a b => compareCodeUnits a.name b.name }
  naturalCompare := compareCodeUnits
  zone := Sli.utc
  draw := fun _ => ()
  approxBytes := fun _ => 1000

def switchItem (itemid name key_ : String) : ItemConfig :=
  { itemid, name, key_, value_type := "3", units := "bps", state := "0", status := "0"
    delay := "1m", flags := "0", tags := [], hostid := "10", host := "Core switch", groupids := ["4"]
    monitored := true, web := false }

/-- A switch with one interface of 1000 bits a second, on which that many came in an hour. -/
def switchWith (traffic : ℚ) : ZabbixState where
  items := [switchItem "1" "Interface Gi0/3(): Bits received" "net.if.in[ifHCInOctets.3]",
    switchItem "2" "Interface Gi0/3(): Speed" "net.if.speed[ifSpeed.3]",
    switchItem "3" "ICMP ping" "icmpping"]
  reachable := fun _ => true
  last := fun _ id => { lastvalue := if id = "3" then "1" else "1000", lastclock := "1000000"
                        prevvalue := "1" }
  history := fun _ _ => []
  trends := fun _ id =>
    if id = "1" then
      [{ itemid := "1", clock := 720000, num := 60, value_min := 0, value_avg := traffic
         value_max := traffic }]
    else []

theorem switchWith_same (traffic other : ℚ) :
    SameButInterfaces (switchWith traffic) (switchWith other) where
  items := rfl
  reachable := rfl
  last _ _ _ _ := rfl
  history _ _ _ _ := rfl
  trends item member plain now := by
    have items : (switchWith traffic).items = [switchItem "1" "Interface Gi0/3(): Bits received"
      "net.if.in[ifHCInOctets.3]", switchItem "2" "Interface Gi0/3(): Speed"
      "net.if.speed[ifSpeed.3]", switchItem "3" "ICMP ping" "icmpping"] := rfl
    rw [items] at member
    simp only [List.mem_cons, List.not_mem_nil, or_false] at member
    obtain rfl | rfl | rfl := member
    · have network : isNetworkKey "net.if.in[ifHCInOctets.3]" = true := by decide
      cases network.symm.trans plain
    · rfl
    · rfl

def capacityTurn : ℤ × PortalEvent Unit :=
  (1000000000, .request .viewer (.capacity { days := none, top := none }))

def interfaceAverages : Except Refusal (Content Unit Unit) → List ℚ
  | .ok (.capacity report) =>
      (report.metrics.filter fun metric => metric.key = "ifutil").flatMap fun metric =>
        metric.rows.map fun row => row.avg
  | _ => []

/-- The capacity report shows a viewer the traffic of an interface. -/
theorem capacity_shows_traffic :
    SameButInterfaces (switchWith 100) (switchWith 900) ∧
      (ItemPortal.run plainSurroundings (switchWith 100) [capacityTurn]).viewerAnswers ≠
        (ItemPortal.run plainSurroundings (switchWith 900) [capacityTurn]).viewerAnswers := by
  refine ⟨switchWith_same 100 900, fun same => ?_⟩
  have averages := congrArg (fun answers => answers.map interfaceAverages) same
  revert averages
  decide +kernel

def mixedTurns : List (ℤ × PortalEvent Unit) :=
  [(1000000000, .request .operator (.capacity { days := none, top := none })),
   (1000001000, .request .operator (.items
      { hostid := some "10", search := none, graphable := none, itemids := none })),
   (1000002000, .request .viewer (.items
      { hostid := some "10", search := none, graphable := none, itemids := none })),
   (1000003000, .request .viewer (.latest
      { hostid := some "10", groupid := none, search := none, page := some "1"
        pageSize := none })),
   (1000004000, .request .viewer (.graph
      { itemids := some "1", hours := none, start := none, stop := none, month := none
        points := none }))]

theorem viewers_learn_nothing_switch :
    (ItemPortal.run plainSurroundings (switchWith 100) mixedTurns).viewerAnswers =
      (ItemPortal.run plainSurroundings (switchWith 900) mixedTurns).viewerAnswers :=
  viewers_learn_nothing plainSurroundings (switchWith 100) (switchWith 900)
    (switchWith_same 100 900) mixedTurns (by decide) (by decide +kernel) (by decide +kernel)

end ZabbixPortal.Services
