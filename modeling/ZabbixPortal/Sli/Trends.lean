import ZabbixPortal.Foundation.Tiling
import ZabbixPortal.Sli.EventsProperties

/-! The requests a read of hourly trends is split into, so that none asks for more
rows than Zabbix can answer. -/

set_option autoImplicit false

namespace ZabbixPortal.Sli

open Foundation

def hourFloor (t : ℤ) : ℤ := t / 3600 * 3600

/-- `Math.ceil(t / 3600)` -/
def hourCeil (t : ℤ) : ℤ := -(-t / 3600)

/-- Most rows one `trend.get` may return, counted as items times hour marks. -/
def TREND_MAX_ROWS : Nat := 35 * 745

def TREND_MIN_ITEMS : Nat := 35

/-- Hour marks in `[from, to]`: at most one trend row an item for each. -/
def hourMarks (first last : ℤ) : ℤ := max 0 (last / 3600 - hourCeil first + 1)

structure TrendSlice where
  itemids : List String
  first : ℤ
  last : ℤ
deriving DecidableEq, Repr

def TrendSlice.window (slice : TrendSlice) : ℤ × ℤ := (slice.first, slice.last)

/-- The `while` loop: each window ends one second before the mark the next begins at. -/
def windowsFrom (windowHours : Nat) (positive : 0 < windowHours) (last start mark : ℤ)
    (_ahead : start < mark) : List (ℤ × ℤ) :=
  if start ≤ last then
    (start, min last (mark - 1)) ::
      windowsFrom windowHours positive last mark (mark + windowHours * 3600) (by omega)
  else []
termination_by (last + 1 - start).toNat

def trendWindows (windowHours : Nat) (positive : 0 < windowHours) (marks : Nat)
    (first last : ℤ) : List (ℤ × ℤ) :=
  if marks ≤ windowHours then [(first, last)]
  else
    windowsFrom windowHours positive last first (hourCeil first * 3600 + windowHours * 3600)
      (by unfold hourCeil; omega)

def perRequest (items maxRows marks : Nat) : Nat :=
  min items (max TREND_MIN_ITEMS (maxRows / marks))

def trendSlices (itemids : List String) (first last : ℤ) (maxRows : Nat) : List TrendSlice :=
  if itemids = [] ∨ last < first then []
  else
    let marks := (max 1 (hourMarks first last)).toNat
    let size := perRequest itemids.length maxRows marks
    let windowHours := max 1 (maxRows / size)
    (trendWindows windowHours (lt_of_lt_of_le Nat.one_pos (Nat.le_max_left _ _)) marks first
      last).flatMap fun window =>
        (chunk size itemids).map fun ids => ⟨ids, window.1, window.2⟩

/-! Every item is asked about once for every hour of the range, and no request asks for
more rows than it may. -/

section Windows

variable {windowHours : Nat} {positive : 0 < windowHours} {last start mark : ℤ}
  {ahead : start < mark}

theorem windowsFrom_past (past : last < start) :
    windowsFrom windowHours positive last start mark ahead = [] := by
  rw [windowsFrom, if_neg (not_le.mpr past)]

theorem windowsFrom_tiles (forward : start ≤ last) :
    Tiles last start (windowsFrom windowHours positive last start mark ahead) := by
  induction start, mark, ahead using windowsFrom.induct windowHours positive last with
  | case1 start mark ahead inside ih =>
      rw [windowsFrom, if_pos inside]
      by_cases more : mark ≤ last
      · have stop : min last (mark - 1) = mark - 1 := min_eq_right (by omega)
        have rest := ih more
        rw [stop]
        apply Tiles.next (by omega)
        rwa [sub_add_cancel]
      · have stop : min last (mark - 1) = last := min_eq_left (by omega)
        rw [stop, windowsFrom_past (by omega)]
        exact .next inside .done
  | case2 start mark ahead outside => exact absurd forward outside

/-- Each window reaches to a mark `windowHours` marks on, so it holds no more of them. -/
theorem windowsFrom_marks (aligned : mark = (hourCeil start + windowHours) * 3600) :
    ∀ window ∈ windowsFrom windowHours positive last start mark ahead,
      hourMarks window.1 window.2 ≤ windowHours := by
  induction start, mark, ahead using windowsFrom.induct windowHours positive last with
  | case1 start mark ahead inside ih =>
      rw [windowsFrom, if_pos inside, List.forall_mem_cons]
      constructor
      · have stop : min last (mark - 1) ≤ mark - 1 := min_le_right _ _
        unfold hourMarks
        dsimp only
        omega
      · apply ih
        unfold hourCeil at aligned ⊢
        omega
  | case2 start mark ahead outside =>
      rw [windowsFrom, if_neg outside]
      simp

theorem trendWindows_tiles (marks : Nat) {first : ℤ} (forward : first ≤ last) :
    Tiles last first (trendWindows windowHours positive marks first last) := by
  unfold trendWindows
  split
  · exact .next forward .done
  · exact windowsFrom_tiles forward

theorem trendWindows_marks {marks : Nat} {first : ℤ} (counted : hourMarks first last ≤ marks) :
    ∀ window ∈ trendWindows windowHours positive marks first last,
      hourMarks window.1 window.2 ≤ windowHours := by
  unfold trendWindows
  split
  · next fits =>
      intro window member
      obtain rfl := List.mem_singleton.mp member
      exact counted.trans (by exact_mod_cast fits)
  · exact windowsFrom_marks (by omega)

end Windows

section Requests

variable {itemids : List String} {first last : ℤ} {maxRows : Nat}

theorem length_chunk_le {α : Type} (size : Nat) (items : List α) :
    ∀ part ∈ chunk size items, part.length ≤ size := by
  induction items using chunk.induct size with
  | case1 items absent =>
      rw [chunk, if_pos absent]
      simp
  | case2 items proper ih =>
      rw [chunk, if_neg proper, List.forall_mem_cons]
      exact ⟨List.length_take_le _ _, ih⟩

theorem perRequest_pos (nonempty : itemids ≠ []) (marks : Nat) :
    perRequest itemids.length maxRows marks ≠ 0 := by
  have items := List.length_pos_of_ne_nil nonempty
  unfold perRequest TREND_MIN_ITEMS
  omega

/-- With room for the least number of items, a request of any size has room for an hour. -/
theorem perRequest_mul_windowHours (enough : TREND_MIN_ITEMS ≤ maxRows) (items marks : Nat) :
    perRequest items maxRows marks * max 1 (maxRows / perRequest items maxRows marks) ≤
      maxRows := by
  have fewer : maxRows / marks ≤ maxRows := Nat.div_le_self _ _
  have fits : perRequest items maxRows marks ≤ maxRows := by
    unfold perRequest
    omega
  cases size : perRequest items maxRows marks with
  | zero => simp
  | succ others =>
      rw [size] at fits
      have hours : 1 ≤ maxRows / (others + 1) := Nat.div_pos fits (Nat.succ_pos _)
      rw [max_eq_right hours]
      exact Nat.mul_div_le _ _

/-- The requests about an item have the windows of the read, one request each. -/
theorem windows_of_item (distinct : itemids.Nodup) {item : String} (member : item ∈ itemids)
    {size : Nat} (positive : size ≠ 0) (windows : List (ℤ × ℤ)) :
    (((windows.flatMap fun window =>
        (chunk size itemids).map fun ids => TrendSlice.mk ids window.1 window.2).filter
      fun slice => item ∈ slice.itemids).map TrendSlice.window) = windows := by
  have whole := chunk_flatten size positive itemids
  obtain ⟨part, _, own⟩ := filter_parts (whole.symm ▸ distinct) (whole.symm ▸ member)
  induction windows with
  | nil => rfl
  | cons window windows ih =>
      have asked : ((chunk size itemids).map fun ids => TrendSlice.mk ids window.1 window.2).filter
          (fun slice => item ∈ slice.itemids) = [⟨part, window.1, window.2⟩] := by
        rw [List.filter_map]
        exact congrArg (List.map _) own
      rw [List.flatMap_cons, List.filter_append, List.map_append, asked, ih]
      rfl

/-- Every item over the whole range, hour by hour once, in requests of bounded size. -/
structure RequestsTile (itemids : List String) (first last : ℤ) (maxRows : Nat) : Prop where
  known : ∀ slice ∈ trendSlices itemids first last maxRows, ∀ item ∈ slice.itemids,
    item ∈ itemids
  consecutive : ∀ item ∈ itemids, Tiles last first
    (((trendSlices itemids first last maxRows).filter fun slice =>
      item ∈ slice.itemids).map TrendSlice.window)
  once : ∀ item ∈ itemids, ∀ mark, 3600 ∣ mark → first ≤ mark → mark ≤ last →
    ((trendSlices itemids first last maxRows).countP fun slice =>
      item ∈ slice.itemids ∧ slice.first ≤ mark ∧ mark ≤ slice.last) = 1
  bounded : TREND_MIN_ITEMS ≤ maxRows → ∀ slice ∈ trendSlices itemids first last maxRows,
    (slice.itemids.length : ℤ) * hourMarks slice.first slice.last ≤ maxRows

theorem trendSlices_eq (nonempty : itemids ≠ []) (forward : first ≤ last) :
    ∃ (marks : Nat) (size : Nat) (positive : 0 < max 1 (maxRows / size)),
      marks = (max 1 (hourMarks first last)).toNat ∧
      size = perRequest itemids.length maxRows marks ∧
      trendSlices itemids first last maxRows =
        (trendWindows (max 1 (maxRows / size)) positive marks first last).flatMap fun window =>
          (chunk size itemids).map fun ids => ⟨ids, window.1, window.2⟩ := by
  have proper : ¬ (itemids = [] ∨ last < first) := by
    rintro (empty | backward)
    · exact nonempty empty
    · exact absurd forward (not_le.mpr backward)
  rw [trendSlices, if_neg proper]
  exact ⟨_, _, _, rfl, rfl, rfl⟩

theorem trendSlices_known (forward : first ≤ last) {slice : TrendSlice}
    (inSlices : slice ∈ trendSlices itemids first last maxRows) {item : String}
    (inSlice : item ∈ slice.itemids) : item ∈ itemids := by
  cases empty : decide (itemids = []) with
  | true =>
      rw [trendSlices, if_pos (.inl (by simpa using empty))] at inSlices
      cases inSlices
  | false =>
      have nonempty : itemids ≠ [] := by simpa using empty
      obtain ⟨marks, size, positive, _, sized, slices⟩ : ∃ (marks : Nat) (size : Nat)
          (_ : 0 < max 1 (maxRows / size)), _ := trendSlices_eq nonempty forward
      have proper : size ≠ 0 := sized ▸ perRequest_pos nonempty marks
      rw [slices] at inSlices
      obtain ⟨window, _, chunked⟩ := List.mem_flatMap.mp inSlices
      obtain ⟨part, inChunks, rfl⟩ := List.mem_map.mp chunked
      rw [← chunk_flatten size proper itemids]
      exact List.mem_flatten.mpr ⟨part, inChunks, inSlice⟩

theorem trendSlices_consecutive (distinct : itemids.Nodup) (forward : first ≤ last)
    {item : String} (member : item ∈ itemids) :
    Tiles last first (((trendSlices itemids first last maxRows).filter fun slice =>
      item ∈ slice.itemids).map TrendSlice.window) := by
  have nonempty := List.ne_nil_of_mem member
  obtain ⟨marks, size, positive, _, sized, slices⟩ : ∃ (marks : Nat) (size : Nat)
      (_ : 0 < max 1 (maxRows / size)), _ := trendSlices_eq nonempty forward
  have proper : size ≠ 0 := sized ▸ perRequest_pos nonempty marks
  rw [slices, windows_of_item distinct member proper]
  exact trendWindows_tiles marks forward

/-- Which rows the requests ask for: those of the items in the range. -/
theorem asked_iff (distinct : itemids.Nodup) (forward : first ≤ last) (item : String)
    (instant : ℤ) :
    (∃ slice ∈ trendSlices itemids first last maxRows,
      item ∈ slice.itemids ∧ slice.first ≤ instant ∧ instant ≤ slice.last) ↔
      item ∈ itemids ∧ first ≤ instant ∧ instant ≤ last := by
  constructor
  · rintro ⟨slice, inSlices, inSlice, lower, upper⟩
    have member := trendSlices_known forward inSlices inSlice
    have tiles : Tiles last first (List.map TrendSlice.window
        ((trendSlices itemids first last maxRows).filter _)) :=
      trendSlices_consecutive distinct forward member
    have window : slice.window ∈ List.map TrendSlice.window
        ((trendSlices itemids first last maxRows).filter fun slice => item ∈ slice.itemids) :=
      List.mem_map.mpr ⟨slice, List.mem_filter.mpr ⟨inSlices, by simpa using inSlice⟩, rfl⟩
    obtain ⟨start, stop⟩ := tiles.within.2 _ window
    exact ⟨member, start.trans lower, upper.trans stop⟩
  · rintro ⟨member, lower, upper⟩
    have tiles : Tiles last first (List.map TrendSlice.window
        ((trendSlices itemids first last maxRows).filter _)) :=
      trendSlices_consecutive distinct forward member
    have counted := tiles.once lower upper
    have positive : 0 < (List.map TrendSlice.window
        ((trendSlices itemids first last maxRows).filter fun slice =>
          item ∈ slice.itemids)).countP (Tiles.Holds instant) := by
      rw [counted]
      exact Nat.one_pos
    obtain ⟨window, inWindows, holds⟩ := List.countP_pos_iff.mp positive
    obtain ⟨slice, kept, rfl⟩ := List.mem_map.mp inWindows
    obtain ⟨inSlices, inSlice⟩ := List.mem_filter.mp kept
    exact ⟨slice, inSlices, by simpa using inSlice, (Tiles.holds_iff _ _).mp holds⟩

/-- The requests tile items and hours, whatever the alignment of the range. -/
theorem trend_requests_tile (itemids : List String) (distinct : itemids.Nodup)
    (first last : ℤ) (forward : first ≤ last) (maxRows : Nat) :
    RequestsTile itemids first last maxRows where
  known := fun _ inSlices _ inSlice => trendSlices_known forward inSlices inSlice
  consecutive := fun item member => trendSlices_consecutive distinct forward member
  once := by
    intro item member mark _ lower upper
    have tiles : Tiles last first (List.map TrendSlice.window
        ((trendSlices itemids first last maxRows).filter _)) :=
      trendSlices_consecutive distinct forward member
    have counted := tiles.once lower upper
    rw [List.countP_map, List.countP_filter] at counted
    rw [← counted]
    apply List.countP_congr
    intro slice _
    simp only [Function.comp, decide_eq_true_eq, Bool.and_eq_true, Tiles.holds_iff]
    exact and_comm
  bounded := by
    intro enough slice inSlices
    cases empty : decide (itemids = []) with
    | true =>
        rw [trendSlices, if_pos (.inl (by simpa using empty))] at inSlices
        cases inSlices
    | false =>
        have nonempty : itemids ≠ [] := by simpa using empty
        obtain ⟨marks, size, positive, counted, sized, slices⟩ : ∃ (marks : Nat) (size : Nat)
            (_ : 0 < max 1 (maxRows / size)), _ := trendSlices_eq nonempty forward
        rw [slices] at inSlices
        obtain ⟨window, inWindows, chunked⟩ := List.mem_flatMap.mp inSlices
        obtain ⟨part, inChunks, rfl⟩ := List.mem_map.mp chunked
        have items := length_chunk_le size itemids part inChunks
        have hours := trendWindows_marks (by omega) window inWindows
        have room := perRequest_mul_windowHours enough itemids.length marks
        rw [← sized] at room
        have nonneg : 0 ≤ hourMarks window.1 window.2 := le_max_left _ _
        calc (part.length : ℤ) * hourMarks window.1 window.2
            ≤ size * (max 1 (maxRows / size) : Nat) :=
              Int.mul_le_mul (by exact_mod_cast items) hours nonneg (Int.natCast_nonneg _)
          _ ≤ maxRows := by exact_mod_cast room

/-- Two items over an unaligned day, at 35 rows a request. -/
theorem trend_requests_tile_day :
    ["1", "2"].Nodup ∧ (100 : ℤ) ≤ 86500 ∧ RequestsTile ["1", "2"] 100 86500 35 :=
  ⟨by decide, by decide, trend_requests_tile ["1", "2"] (by decide) 100 86500 (by decide) 35⟩

end Requests

end ZabbixPortal.Sli
