import ZabbixPortal.Export.PageLayoutProperties

/-! Cards, charts and tables on their pages: the loops end, and no bar and no row is lost. -/

set_option autoImplicit false

namespace ZabbixPortal.Export.Pdf

open Foundation

variable (normalize : List UInt16 → List Nat)

section Captions

theorem length_wrapMax_le (wrap : FontFace → ℚ → ℚ → WinAnsiText → List WinAnsiText)
    (face : FontFace) (size width : ℚ) {max : Nat} (positive : 0 < max) (s : WinAnsiText) :
    (wrapMax wrap face size width max s).length ≤ max := by
  unfold wrapMax
  dsimp only
  split
  · assumption
  · rw [List.length_append, List.length_take, List.length_singleton]
    omega

theorem length_captionOf_le (caption : Option (List UInt16)) :
    (captionOf normalize caption).length ≤ 2 := by
  unfold captionOf wrapTwo
  split
  · exact Nat.zero_le 2
  · split
    · exact Nat.zero_le 2
    · exact length_wrapMax_le _ _ _ _ (by norm_num) _

theorem headingHeight_le {captionLines : Nat} (two : captionLines ≤ 2) (continued : Bool) :
    headingHeight captionLines continued ≤ 47 := by
  have lines : (captionLines : ℚ) ≤ 2 := by exact_mod_cast two
  unfold headingHeight
  split
  · norm_num
  · linarith

end Captions

section Cards

theorem exists_puts (height : ℚ) (cards : List Card) (l : Layout) :
    ∃ drawn, cards.foldl (fun l card => l.put (.card card) height) l = { l with drawn } := by
  induction cards generalizing l with
  | nil => exact ⟨l.drawn, rfl⟩
  | cons card rest ih => exact ih (l.put (.card card) height)

theorem Layout.Sound.kpiRow {l : Layout} (sound : l.Sound) (row : List Kpi) :
    (l.kpiRow normalize row).Sound := by
  unfold Layout.kpiRow
  extract_lets width cards labelLines detailLines height
  obtain ⟨drawn, puts⟩ := exists_puts height cards (l.ensure height)
  have high : 0 < height + SECTION_GAP := by
    have label : (0 : ℚ) ≤ labelLines * 10.5 := by positivity
    have detail : (0 : ℚ) ≤ if detailLines = 0 then 0 else 3 + (detailLines : ℚ) * 10.5 := by
      split
      · exact le_rfl
      · positivity
    have total : height = 10 + labelLines * 10.5 + 4 + 24 +
        (if detailLines = 0 then 0 else 3 + (detailLines : ℚ) * 10.5) + 10 := rfl
    unfold SECTION_GAP
    linarith
  rw [puts]
  exact (Drew.ensure sound height).sound.leave high drawn

theorem Layout.Sound.kpis {l : Layout} (sound : l.Sound) (list : List Kpi) :
    (l.kpis normalize list).Sound := by
  induction l, list using Layout.kpis.induct normalize with
  | case1 l =>
      rw [Layout.kpis, if_pos rfl]
      exact sound
  | case2 l list nonempty ih =>
      rw [Layout.kpis, if_neg nonempty]
      exact ih (sound.kpiRow normalize _)

end Cards

section Charts

variable {captionLines : Nat} {step : BarStep}

theorem pitch_mem {s : BarStep} (member : s ∈ barSteps) : 9 ≤ s.pitch ∧ s.pitch ≤ 17 := by
  simp only [barSteps, List.mem_cons, List.not_mem_nil, or_false] at member
  rcases member with rfl | rfl | rfl | rfl | rfl <;> norm_num

theorem pitch_stepOf (captionLines bars : Nat) :
    9 ≤ (stepOf captionLines bars).pitch ∧ (stepOf captionLines bars).pitch ≤ 17 := by
  unfold stepOf
  cases found : barSteps.find? fun s => fixed captionLines true + bars * s.pitch ≤ fresh with
  | none => norm_num
  | some s => exact pitch_mem (List.mem_of_find?_eq_some found)

theorem fixed_le (two : captionLines ≤ 2) (first : Bool) : fixed captionLines first ≤ 77 := by
  have lines : (if first then captionLines else 0) ≤ 2 := by
    split
    · exact two
    · exact Nat.zero_le 2
  have := headingHeight_le lines (!first)
  unfold fixed
  linarith

/-- As many bars as the capacity says go into the room. -/
theorem fits_of_le_capacity {take : Nat} {room : ℚ} {first : Bool} (pitch : 9 ≤ step.pitch)
    (positive : take ≠ 0) (within : take ≤ capacity step captionLines room first) :
    fixed captionLines first + take * step.pitch ≤ room := by
  have all := (Nat.le_floor_iff' positive).mp within
  rw [le_div_iff₀ (by linarith)] at all
  linarith

theorem le_capacity {take : Nat} {room : ℚ} {first : Bool} (pitch : 9 ≤ step.pitch)
    (fits : fixed captionLines first + take * step.pitch ≤ room) :
    take ≤ capacity step captionLines room first := by
  have all : (take : ℚ) ≤ (room - fixed captionLines first) / step.pitch := by
    rw [le_div_iff₀ (by linarith)]
    linarith
  exact Nat.le_floor all

def chartPage (l : Layout) (step : BarStep) (captionLines rest : Nat) (first : Bool) : Layout :=
  let needed := fixed captionLines first + rest * step.pitch
  if needed > l.room ∧ (needed ≤ fresh ∨ capacity step captionLines l.room first < 6) ∧
    l.y > l.pageTop then l.newPage else l

/-- A slice of a chart has room for a bar where it goes. -/
theorem one_le_take {l : Layout} (sound : l.Sound) (two : captionLines ≤ 2) (first : Bool)
    (pitch : 9 ≤ step.pitch ∧ step.pitch ≤ 17) {rest : Nat} (positive : 1 ≤ rest) :
    1 ≤ min rest
      (capacity step captionLines (chartPage l step captionLines rest first).room first) := by
  have low := fixed_le two first
  refine Nat.le_min.mpr ⟨positive, ?_⟩
  -- at the top of a page there is room for one
  have onTop : ∀ {room : ℚ}, 444 ≤ room → 1 ≤ capacity step captionLines room first := by
    intro room high
    refine le_capacity pitch.1 ?_
    rw [Nat.cast_one, one_mul]
    linarith [pitch.2]
  unfold chartPage
  extract_lets needed
  split
  · rw [Layout.room_newPage]
    exact onTop (by norm_num)
  · next stays =>
      by_cases fits : needed ≤ l.room
      · exact positive.trans (le_capacity pitch.1 fits)
      · by_cases above : l.y > l.pageTop
        · have six : ¬ capacity step captionLines l.room first < 6 :=
            fun few => stays ⟨not_le.mp fits, .inr few, above⟩
          omega
        · exact onTop (sound.room_top above).1

/-- What the loop of a chart keeps: the bars drawn and those left are the bars of the chart. -/
structure ChartKept (l : Layout) (bars : List Bar) (s : ChartState) (new : List Drawn) : Prop where
  drew : Drew l s.layout new
  bars : new.filterMap Drawn.bar ++ s.rest = bars

theorem filterMap_bar_plain {new : List Drawn} (plain : Plain new) : new.filterMap Drawn.bar = [] :=
  List.filterMap_eq_nil_iff.mpr fun d member => (plain d member).2.1

theorem filterMap_bar_stack (height : ℚ) (page : Nat) (top : ℚ) (bars : List Bar) :
    (stack Item.bar height page top bars).filterMap Drawn.bar = bars := by
  have picks : (stack Item.bar height page top bars).filterMap Drawn.bar = bars.filterMap some :=
    filterMap_stack Item.bar height (fun _ _ _ => rfl) page top bars
  rw [picks, List.filterMap_some]

/-- A heading and the bars below it, where both fit. -/
theorem Drew.slice {l : Layout} (sound : l.Sound) (title : WinAnsiText)
    (caption : List WinAnsiText) (continued : Bool) (bars : List Bar) (pitch : 9 ≤ step.pitch)
    (fits : headingHeight caption.length continued + 14 + 16 + bars.length * step.pitch ≤ l.room) :
    ∃ new, Drew l ((l.heading title caption continued).chartSlice bars step) new ∧
      new.filterMap Drawn.bar = bars := by
  have high : 0 < step.pitch := by linarith
  have bars_nonneg : (0 : ℚ) ≤ bars.length * step.pitch := by positivity
  obtain ⟨titles, headed, plain⟩ := Drew.heading sound title caption continued (by linarith)
  have lowered := headed.trans (Drew.down headed.sound (d := 14) (by norm_num))
  have room : bars.length * step.pitch ≤ ((l.heading title caption continued).down 14).room := by
    show _ ≤ CONTENT_BOTTOM - ((l.heading title caption continued).y + 14)
    rw [Layout.heading_y]
    rw [Layout.room] at fits
    linarith
  have drawn := lowered.trans (Drew.drawAll Item.bar lowered.sound high room)
  have below := drawn.trans (Drew.down drawn.sound (d := 16) (by norm_num))
  refine ⟨_, below, ?_⟩
  rw [List.append_nil, List.append_nil, List.filterMap_append, filterMap_bar_plain plain,
    filterMap_bar_stack, List.nil_append]

theorem chartStep_kept {l : Layout} {chart : BarChart} {s t : ChartState} {new : List Drawn}
    (kept : ChartKept l chart.bars s new) (taken : chartStep normalize chart s = some t) :
    (∃ more, ChartKept l chart.bars t more) ∧ t.rest.length < s.rest.length := by
  unfold chartStep at taken
  split at taken
  · cases taken
  · next nonempty =>
      extract_lets caption step needed page take marked headed sliced rest at taken
      cases taken
      have two := length_captionOf_le normalize chart.caption
      have pitch := pitch_stepOf caption.length chart.bars.length
      have length : 1 ≤ s.rest.length := List.length_pos_iff.mpr nonempty
      have one : 1 ≤ take := one_le_take kept.drew.sound two s.first pitch length
      have fits : fixed caption.length s.first + take * step.pitch ≤ page.room :=
        fits_of_le_capacity pitch.1 (by omega) (Nat.min_le_right _ _)
      have paged : Drew s.layout page [] := by
        show Drew s.layout (if _ then s.layout.newPage else s.layout) []
        split
        · exact .newPage kept.drew.sound
        · exact .refl kept.drew.sound
      have markedThere : Drew page marked [] ∧ marked.room = page.room := by
        show Drew page (if s.first then page.mark chart.title else page) [] ∧
          (if s.first then page.mark chart.title else page).room = page.room
        split
        · exact ⟨.mark paged.sound chart.title, rfl⟩
        · exact ⟨.refl paged.sound, rfl⟩
      obtain ⟨more, sliced', bars⟩ := Drew.slice markedThere.1.sound
        (if s.first then toWinAnsi normalize chart.title
          else continuedTitle normalize chart.title)
        (if s.first then caption else []) (!s.first) (s.rest.take take) pitch.1 (by
          rw [markedThere.2, List.length_take_of_le (Nat.min_le_left _ _), apply_ite List.length]
          exact fits)
      have turned : Drew sliced (if rest = [] then sliced else sliced.newPage) [] := by
        split
        · exact .refl sliced'.sound
        · exact .newPage sliced'.sound
      have all := (((kept.drew.trans paged).trans markedThere.1).trans sliced').trans turned
      refine ⟨⟨_, all, ?_⟩, ?_⟩
      · rw [List.append_nil, List.append_nil, List.append_nil, List.filterMap_append, bars,
          List.append_assoc]
        show _ ++ (s.rest.take take ++ s.rest.drop take) = _
        rw [List.take_append_drop, kept.bars]
      · show (s.rest.drop take).length < s.rest.length
        rw [List.length_drop]
        omega

/-- A chart of any number of bars is drawn to its end, every bar once and in order. -/
theorem Layout.Sound.chart {l : Layout} (sound : l.Sound) (chart : Option BarChart) :
    ∃ m new, l.chart normalize chart = some m ∧ Drew l m new ∧
      new.filterMap Drawn.bar = (chart.map BarChart.bars).getD [] := by
  cases chart with
  | none => exact ⟨l, [], rfl, .refl sound, rfl⟩
  | some chart =>
      show ∃ m new, (if chart.bars = [] then some l else _) = some m ∧ _
      by_cases empty : chart.bars = []
      · rw [if_pos empty]
        exact ⟨l, [], rfl, .refl sound, empty.symm⟩
      · rw [if_neg empty]
        have step : ∀ s t, (∃ new, ChartKept l chart.bars s new) → chartStep normalize chart s = some t →
            (∃ more, ChartKept l chart.bars t more) ∧ t.rest.length < s.rest.length := by
          intro s t holds taken
          obtain ⟨new, kept⟩ := holds
          exact chartStep_kept normalize kept taken
        obtain ⟨last, ends, ⟨new, kept⟩, stops⟩ := exists_runLoop (chartStep normalize chart) _ _ step
          ⟨l, chart.bars, true⟩ ⟨[], .refl sound, rfl⟩ (Nat.lt_succ_self _)
        have done : last.rest = [] := by
          unfold chartStep at stops
          split at stops
          · assumption
          · cases stops
        have below := kept.drew.trans (Drew.down kept.drew.sound (d := 10) (by norm_num))
        refine ⟨_, _, by rw [ends]; rfl, below, ?_⟩
        rw [List.append_nil]
        have bars := kept.bars
        rw [done, List.append_nil] at bars
        exact bars

end Charts

section Tables

theorem exists_other {α : Type} {items : List α} (two : 2 ≤ items.length) (start : Nat) (a : α × Nat) :
    ∃ b ∈ items.zipIdx start, b ≠ a := by
  rcases items with _ | ⟨x, _ | ⟨y, rest⟩⟩
  · exact absurd two (by norm_num)
  · exact absurd two (by norm_num)
  · rw [List.zipIdx_cons, List.zipIdx_cons]
    by_cases first : a.2 = start
    · refine ⟨(y, start + 1), List.mem_cons_of_mem _ List.mem_cons_self, ?_⟩
      rintro rfl
      exact Nat.succ_ne_self start first
    · refine ⟨(x, start), List.mem_cons_self, ?_⟩
      rintro rfl
      exact first rfl

theorem headerHeight_mem (headers : List (List WinAnsiText)) :
    20 ≤ headerHeight headers ∧ headerHeight headers ≤ 28 := by
  unfold headerHeight
  split <;> norm_num

/-- Where two rows go, or all three of three, no page gets one row and none is left over. -/
theorem fitOf_spec {left : Nat} {room : ℚ} (positive : 1 ≤ left) (two : min left 2 ≤ ⌊room / ROW_H⌋₊)
    (three : left = 3 → 3 ≤ ⌊room / ROW_H⌋₊) :
    fitOf left room ≤ left ∧ min left 2 ≤ fitOf left room ∧ left - fitOf left room ≠ 1 ∧
      fitOf left room * ROW_H ≤ room := by
  have bounds : fitOf left room ≤ left ∧ min left 2 ≤ fitOf left room ∧
      left - fitOf left room ≠ 1 ∧ fitOf left room ≤ ⌊room / ROW_H⌋₊ := by
    unfold fitOf
    generalize ⌊room / ROW_H⌋₊ = slots at two three ⊢
    dsimp only
    split <;> omega
  refine ⟨bounds.1, bounds.2.1, bounds.2.2.1, ?_⟩
  have within := (Nat.le_floor_iff' (by omega)).mp bounds.2.2.2
  rw [le_div_iff₀ (by norm_num [ROW_H])] at within
  exact within

theorem le_slots {rows : Nat} {room : ℚ} (fits : rows * ROW_H ≤ room) : rows ≤ ⌊room / ROW_H⌋₊ := by
  have all : (rows : ℚ) ≤ room / ROW_H := by
    rw [le_div_iff₀ (by norm_num [ROW_H])]
    exact fits
  exact Nat.le_floor all

theorem firstRowsOf_spec (units : Nat) :
    min units 2 ≤ firstRowsOf units ∧ (units = 3 → 3 ≤ firstRowsOf units) ∧ firstRowsOf units ≤ 3 := by
  unfold firstRowsOf
  split <;> omega

theorem filterMap_row_plain {new : List Drawn} (plain : Plain new) : new.filterMap Drawn.row = [] :=
  List.filterMap_eq_nil_iff.mpr fun d member => (plain d member).1

/-- What the loop of a table keeps: the rows drawn, none of them alone, and never one left over. -/
structure TableKept (l : Layout) (t : Table) (s : TableState) (new : List Drawn) : Prop where
  drew : Drew l s.layout new
  rows : new.filterMap Drawn.row = (t.units.take s.i).zipIdx
  within : s.i ≤ t.units.length
  alone : 2 ≤ t.units.length → NoneAlone Drawn.row new
  room : s.i = 0 → headerHeight (headersOf normalize t) + firstRowsOf t.units.length * ROW_H ≤
    s.layout.room
  left : 0 < s.i → t.units.length - s.i ≠ 1

variable {normalize}

/-- Below the header there is room for the rows a page must have. -/
theorem TableKept.exists_titled {l : Layout} {t : Table} {s : TableState} {new : List Drawn}
    (kept : TableKept normalize l t s new) :
    let page := if s.i > 0 then s.layout.newPage.heading (continuedTitle normalize t.title) [] true
      else s.layout
    let headed := page.draw (.header (headersOf normalize t)) (headerHeight (headersOf normalize t))
    ∃ titles, Drew s.layout headed titles ∧ Plain titles ∧
      min (t.units.length - s.i) 2 ≤ ⌊headed.room / ROW_H⌋₊ ∧
        (t.units.length - s.i = 3 → 3 ≤ ⌊headed.room / ROW_H⌋₊) := by
  have height := headerHeight_mem (headersOf normalize t)
  have room : ∀ page : Layout, (page.draw (.header (headersOf normalize t))
      (headerHeight (headersOf normalize t))).room =
        page.room - headerHeight (headersOf normalize t) := by
    intro page
    show CONTENT_BOTTOM - (page.y + _) = CONTENT_BOTTOM - page.y - _
    ring
  intro page headed
  by_cases later : s.i > 0
  · have samePage : page = s.layout.newPage.heading (continuedTitle normalize t.title) [] true :=
      if_pos later
    have fresh := Drew.newPage kept.drew.sound
    obtain ⟨titles, titled, plain⟩ := Drew.heading fresh.sound (continuedTitle normalize t.title) []
      true (by rw [Layout.room_newPage]; norm_num [headingHeight])
    have roomTitled : page.room = 446 := by
      rw [samePage, Layout.room, Layout.heading_y]
      norm_num [Layout.newPage, headingHeight, CONTENT_BOTTOM, NEXT_TOP]
    rw [← samePage] at titled
    have below := (fresh.trans titled).trans (Drew.draw titled.sound (.header (headersOf normalize t))
      (by linarith : 0 < headerHeight (headersOf normalize t)) (by linarith))
    have slots : 26 ≤ ⌊headed.room / ROW_H⌋₊ := le_slots (by
      rw [room, roomTitled]
      norm_num [ROW_H]
      linarith)
    refine ⟨_, below, ?_, by omega, by omega⟩
    rw [List.nil_append]
    exact List.forall_mem_append.mpr ⟨plain, List.forall_mem_singleton.mpr ⟨rfl, rfl, rfl⟩⟩
  · have samePage : page = s.layout := if_neg later
    have start : s.i = 0 := by omega
    have first := kept.room start
    have rows : (0 : ℚ) ≤ firstRowsOf t.units.length * ROW_H := by
      unfold ROW_H
      positivity
    have sameHeaded : headed = s.layout.draw (.header (headersOf normalize t))
        (headerHeight (headersOf normalize t)) := by
      show page.draw _ _ = _
      rw [samePage]
    have below := Drew.draw kept.drew.sound (.header (headersOf normalize t))
      (by linarith : 0 < headerHeight (headersOf normalize t)) (by linarith)
    rw [← sameHeaded] at below
    have slots : firstRowsOf t.units.length ≤ ⌊headed.room / ROW_H⌋₊ := le_slots (by
      rw [room, samePage]
      linarith)
    obtain ⟨two, three, _⟩ := firstRowsOf_spec t.units.length
    refine ⟨_, below, List.forall_mem_singleton.mpr ⟨rfl, rfl, rfl⟩, ?_, ?_⟩
    · rw [start]
      exact two.trans slots
    · rw [start]
      intro left
      exact (three left).trans slots

theorem filterMap_row_stack (page : Nat) (top : ℚ) (units : List BodyRow) (index : Nat) :
    (stack (fun unit : BodyRow × Nat => Item.row unit.2 unit.1) ROW_H page top
      (units.zipIdx index)).filterMap Drawn.row = units.zipIdx index := by
  have picks : (stack (fun unit : BodyRow × Nat => Item.row unit.2 unit.1) ROW_H page top
      (units.zipIdx index)).filterMap Drawn.row = (units.zipIdx index).filterMap some :=
    filterMap_stack _ ROW_H (fun _ _ _ => rfl) page top (units.zipIdx index)
  rw [picks, List.filterMap_some]

theorem tableStep_kept {l : Layout} {t : Table} {s next : TableState} {new : List Drawn}
    (kept : TableKept normalize l t s new) (taken : tableStep normalize t s = some next) :
    (∃ more, TableKept normalize l t next more) ∧ s.i < next.i := by
  unfold tableStep at taken
  split at taken
  · next goesOn =>
      obtain ⟨titles, titled, plain, two, three⟩ := kept.exists_titled
      extract_lets page headed fit at taken
      cases taken
      have bounds : fit ≤ t.units.length - s.i ∧ min (t.units.length - s.i) 2 ≤ fit ∧
          t.units.length - s.i - fit ≠ 1 ∧ fit * ROW_H ≤ headed.room :=
        fitOf_spec (by omega) two three
      obtain ⟨atMost, atLeast, notOne, room⟩ := bounds
      have slice : ((t.units.drop s.i).take fit).length = fit := by
        rw [List.length_take, List.length_drop]
        exact Nat.min_eq_left atMost
      have fits : (((t.units.drop s.i).take fit).zipIdx s.i).length * ROW_H ≤ headed.room := by
        rw [List.length_zipIdx, slice]
        exact room
      have drawn := Drew.drawAll (fun unit : BodyRow × Nat => .row unit.2 unit.1) titled.sound
        (by norm_num [ROW_H]) fits
      have rows := filterMap_row_stack headed.pages headed.y ((t.units.drop s.i).take fit) s.i
      refine ⟨⟨_, (kept.drew.trans titled).trans drawn, ?_, ?_, ?_, ?_, ?_⟩, ?_⟩
      · have length : (t.units.take s.i).length = s.i := List.length_take_of_le kept.within
        rw [List.filterMap_append, List.filterMap_append, kept.rows, filterMap_row_plain plain, rows,
          List.append_nil]
        show _ = (t.units.take (s.i + fit)).zipIdx
        rw [List.take_add, List.zipIdx_append, length, Nat.zero_add]
      · show s.i + fit ≤ t.units.length
        omega
      · intro two
        have quiet : NoneAlone Drawn.row titles := .of_none fun d member => (plain d member).1
        refine ((kept.alone two).append quiet).append (.of_page headed.pages ?_ ?_)
        · intro d member
          exact page_of_mem_stack _ _ member
        · intro a _
          rw [rows]
          have left := kept.left
          exact exists_other (by rw [slice]; omega) s.i a
      · intro start
        have start : s.i + fit = 0 := start
        omega
      · intro _
        show t.units.length - (s.i + fit) ≠ 1
        omega
      · show s.i < s.i + fit
        omega
  · cases taken

/-- The rows of a table that are drawn: a footer has nothing to sum up where there are no rows. -/
def drawnUnits (t : Table) : List BodyRow := if t.rows = [] then [] else t.units

/-- A title where what it opens fits, and the room that is left for that. -/
theorem Drew.open {l : Layout} (sound : l.Sound) {caption : List WinAnsiText} (marked : List UInt16)
    (title : WinAnsiText) {height : ℚ} (positive : 0 ≤ height)
    (low : headingHeight caption.length false + height ≤ 444) :
    ∃ titles, Drew l (((l.ensure (headingHeight caption.length false + height)).mark marked).heading
        title caption false) titles ∧ Plain titles ∧
      height ≤ (((l.ensure (headingHeight caption.length false + height)).mark marked).heading
        title caption false).room := by
  have ensured := Drew.ensure sound (headingHeight caption.length false + height)
  have room := sound.room_ensure low
  generalize l.ensure (headingHeight caption.length false + height) = page at ensured room ⊢
  have there := ensured.trans (Drew.mark ensured.sound marked)
  obtain ⟨titles, headed, plain⟩ := Drew.heading there.sound title caption false (by
    show _ ≤ page.room
    linarith)
  refine ⟨titles, there.trans headed, plain, ?_⟩
  rw [Layout.room, Layout.heading_y]
  rw [Layout.room] at room
  show height ≤ CONTENT_BOTTOM - (page.y + _)
  linarith

variable (normalize)

/-- The message that stands in for a table without rows. -/
theorem Layout.Sound.table_empty {l : Layout} (sound : l.Sound) {t : Table} (columns : t.columns ≠ [])
    (empty : t.rows = []) :
    ∃ m new, l.table normalize t = some (.ok m) ∧ Drew l m new ∧ Plain new := by
  unfold Layout.table
  rw [if_neg columns]
  dsimp only
  rw [if_pos empty]
  have low := headingHeight_le (length_captionOf_le normalize t.caption) false
  obtain ⟨titles, opened, plain, room⟩ := Drew.open sound t.title (toWinAnsi normalize t.title)
    (by norm_num : (0 : ℚ) ≤ 28) (by linarith)
  generalize (((l.ensure _).mark t.title).heading _ (captionOf normalize t.caption) false) = page
    at opened room ⊢
  have message := Drew.draw opened.sound (.empty (fitText .regular BODY_SIZE (PRINT_W - 2 * PAD - 8)
    (toWinAnsi normalize (t.empty.getD (ascii "Nothing to list.")))))
    (by norm_num : (0 : ℚ) < 24) (by linarith)
  have below := (opened.trans message).trans
    (Drew.down message.sound (d := SECTION_GAP) (by norm_num [SECTION_GAP]))
  rw [List.append_nil] at below
  rw [Layout.put_down]
  exact ⟨_, _, rfl, below,
    List.forall_mem_append.mpr ⟨plain, List.forall_mem_singleton.mpr ⟨rfl, rfl, rfl⟩⟩⟩

/-- A table of any number of rows is drawn to its end: every row once and in order, none alone. -/
theorem Layout.Sound.table {l : Layout} (sound : l.Sound) {t : Table} (columns : t.columns ≠ []) :
    ∃ m new, l.table normalize t = some (.ok m) ∧ Drew l m new ∧
      new.filterMap Drawn.row = (drawnUnits t).zipIdx ∧
        (2 ≤ t.units.length → NoneAlone Drawn.row new) := by
  by_cases empty : t.rows = []
  · obtain ⟨m, new, result, drew, plain⟩ := sound.table_empty normalize columns empty
    refine ⟨m, new, result, drew, ?_, fun _ => .of_none fun d member => (plain d member).1⟩
    rw [filterMap_row_plain plain, drawnUnits, if_pos empty]
    rfl
  · unfold Layout.table
    rw [if_neg columns]
    dsimp only
    rw [if_neg empty, add_assoc]
    have low := headingHeight_le (length_captionOf_le normalize t.caption) false
    have height := headerHeight_mem (headersOf normalize t)
    have few : (firstRowsOf t.units.length : ℚ) ≤ 3 := by
      exact_mod_cast (firstRowsOf_spec t.units.length).2.2
    have rows : 0 ≤ (firstRowsOf t.units.length : ℚ) * ROW_H ∧
        (firstRowsOf t.units.length : ℚ) * ROW_H ≤ 48 := by
      unfold ROW_H
      exact ⟨by positivity, by linarith⟩
    obtain ⟨titles, opened, plain, room⟩ := Drew.open sound t.title (toWinAnsi normalize t.title)
      (by linarith : 0 ≤ headerHeight (headersOf normalize t) + firstRowsOf t.units.length * ROW_H)
      (by linarith)
    generalize (((l.ensure _).mark t.title).heading _ (captionOf normalize t.caption) false) = page
      at opened room ⊢
    have start : TableKept normalize l t ⟨page, 0⟩ titles :=
      ⟨opened, filterMap_row_plain plain, Nat.zero_le _,
        fun _ => .of_none fun d member => (plain d member).1, fun _ => room,
        fun later => absurd later (Nat.lt_irrefl 0)⟩
    have step : ∀ s next, (∃ new, TableKept normalize l t s new) → tableStep normalize t s = some next →
        (∃ more, TableKept normalize l t next more) ∧
          t.units.length - next.i < t.units.length - s.i := by
      intro s next holds taken
      obtain ⟨new, kept⟩ := holds
      obtain ⟨⟨more, still⟩, further⟩ := tableStep_kept kept taken
      have within := still.within
      exact ⟨⟨more, still⟩, by omega⟩
    obtain ⟨last, ends, ⟨new, kept⟩, stops⟩ := exists_runLoop (tableStep normalize t) _
      (fun s => t.units.length - s.i) step ⟨page, 0⟩ ⟨titles, start⟩
      (Nat.lt_succ_self _ : t.units.length < t.units.length + 1)
    have done : t.units.length ≤ last.i := by
      unfold tableStep at stops
      split at stops
      · cases stops
      · omega
    have below := kept.drew.trans
      (Drew.down kept.drew.sound (d := SECTION_GAP) (by norm_num [SECTION_GAP]))
    rw [List.append_nil] at below
    refine ⟨_, new, by rw [ends]; rfl, below, ?_, kept.alone⟩
    rw [kept.rows, List.take_of_length_le done, drawnUnits, if_neg empty]

end Tables

end ZabbixPortal.Export.Pdf
