import ZabbixPortal.Export.PageLayout
import Mathlib.Data.Prod.Lex
import Mathlib.Tactic.Linarith
import Mathlib.Tactic.NormNum

/-! What a step of the layout draws stands on its page, behind what is there, and above what comes. -/

set_option autoImplicit false

namespace ZabbixPortal.Export.Pdf

open Foundation

abbrev Place := ℕ ×ₗ ℚ

def placeOf (page : Nat) (y : ℚ) : Place := toLex (page, y)

theorem placeOf_le {page : Nat} {y z : ℚ} : placeOf page y ≤ placeOf page z ↔ y ≤ z := by
  rw [placeOf, placeOf, Prod.Lex.toLex_le_toLex]
  constructor
  · rintro (before | ⟨_, le⟩)
    · exact absurd before (Nat.lt_irrefl page)
    · exact le
  · intro le
    exact .inr ⟨rfl, le⟩

theorem placeOf_le_of_lt {page next : Nat} (before : page < next) (y z : ℚ) :
    placeOf page y ≤ placeOf next z :=
  Prod.Lex.toLex_le_toLex.mpr (.inl before)

namespace Drawn

variable (d : Drawn)

def head : Place := placeOf d.page d.top

def foot : Place := placeOf d.page (d.top + d.height)

structure Within (d : Drawn) : Prop where
  top : topOf d.page ≤ d.top
  bottom : d.top + d.height ≤ CONTENT_BOTTOM

def row : Option (BodyRow × Nat) :=
  match d.item with
  | .row index unit => some (unit, index)
  | _ => none

def bar : Option Bar :=
  match d.item with
  | .bar bar => some bar
  | _ => none

def line : Option (WinAnsiText × Nat) :=
  match d.item with
  | .line index text => some (text, index)
  | _ => none

end Drawn

namespace Layout

def place (l : Layout) : Place := placeOf l.pages l.y

/-- A page is never left above its top, and at the top of the first nothing is drawn. -/
structure Sound (l : Layout) : Prop where
  pages : 1 ≤ l.pages
  top : l.pageTop ≤ l.y
  blank : l.pages = 1 → l.y = FIRST_TOP → l.drawn = []

theorem Sound.start : start.Sound := ⟨Nat.le_refl 1, le_rfl, fun _ _ => rfl⟩

variable {l : Layout}

theorem Sound.newPage (sound : l.Sound) : l.newPage.Sound := by
  have pages := sound.pages
  have later : l.pages + 1 ≠ 1 := by omega
  refine ⟨Nat.le_succ_of_le pages, ?_, fun one => absurd one later⟩
  show topOf (l.pages + 1) ≤ NEXT_TOP
  rw [topOf, if_neg later]

theorem Sound.mark (sound : l.Sound) (title : List UInt16) : (l.mark title).Sound :=
  ⟨sound.pages, sound.top, sound.blank⟩

theorem Sound.down (sound : l.Sound) {d : ℚ} (forward : 0 ≤ d) : (l.down d).Sound := by
  have top := sound.top
  refine ⟨sound.pages, top.trans (le_add_of_nonneg_right forward), ?_⟩
  intro one first
  have one : l.pages = 1 := one
  rw [pageTop, topOf, if_pos one] at top
  have still : l.y = FIRST_TOP := le_antisymm (by rw [← first]; exact le_add_of_nonneg_right forward) top
  exact sound.blank one still

/-- Whatever is put on a page, it is sound once it is left behind. -/
theorem Sound.leave (sound : l.Sound) {d : ℚ} (forward : 0 < d) (drawn : List Drawn) :
    ({ l with drawn } : Layout).down d |>.Sound := by
  have top := sound.top
  refine ⟨sound.pages, top.trans (le_add_of_nonneg_right forward.le), ?_⟩
  intro one first
  have one : l.pages = 1 := one
  rw [pageTop, topOf, if_pos one] at top
  have first : l.y + d = FIRST_TOP := first
  linarith

theorem Sound.draw (sound : l.Sound) (item : Item) {height : ℚ} (high : 0 < height) :
    (l.draw item height).Sound := sound.leave high _

theorem put_down (l : Layout) (item : Item) (height d : ℚ) :
    (l.put item height).down (height + d) = (l.draw item height).down d := by
  show ({ l.put item height with y := l.y + (height + d) } : Layout) = _
  rw [← add_assoc]
  rfl

theorem room_newPage (l : Layout) : l.newPage.room = 466 := by
  show CONTENT_BOTTOM - NEXT_TOP = 466
  norm_num [CONTENT_BOTTOM, NEXT_TOP]

theorem fresh_eq : fresh = 466 := by norm_num [fresh, CONTENT_BOTTOM, NEXT_TOP]

/-- The room at the top of a page; the first one has the band on it. -/
theorem Sound.room_top (sound : l.Sound) (top : ¬ l.y > l.pageTop) :
    444 ≤ l.room ∧ (466 ≤ l.room ∨ l.drawn = []) := by
  have same : l.y = l.pageTop := le_antisymm (not_lt.mp top) sound.top
  by_cases one : l.pages = 1
  · have first : l.y = FIRST_TOP := by rw [same, pageTop, topOf, if_pos one]
    refine ⟨?_, .inr (sound.blank one first)⟩
    rw [room, first]
    norm_num [CONTENT_BOTTOM, FIRST_TOP]
  · have later : l.y = NEXT_TOP := by rw [same, pageTop, topOf, if_neg one]
    have all : l.room = 466 := by
      rw [room, later]
      norm_num [CONTENT_BOTTOM, NEXT_TOP]
    rw [all]
    exact ⟨by norm_num, .inl le_rfl⟩

end Layout

/-- What was drawn between two layouts: on its pages, one thing below the other, behind the first
layout and before the second. -/
structure Drew (l m : Layout) (new : List Drawn) : Prop where
  sound : m.Sound
  drawn : m.drawn = l.drawn ++ new
  within : ∀ d ∈ new, d.Within
  stacked : new.Pairwise fun d e => d.foot ≤ e.head
  behind : ∀ d ∈ new, l.place ≤ d.head
  before : ∀ d ∈ new, d.foot ≤ m.place
  moved : l.place ≤ m.place

namespace Drew

variable {l m k : Layout} {new more : List Drawn}

theorem refl (sound : l.Sound) : Drew l l [] :=
  ⟨sound, (List.append_nil _).symm, List.forall_mem_nil _, .nil, List.forall_mem_nil _,
    List.forall_mem_nil _, le_rfl⟩

theorem trans (first : Drew l m new) (next : Drew m k more) : Drew l k (new ++ more) := by
  refine ⟨next.sound, ?_, ?_, ?_, ?_, ?_, first.moved.trans next.moved⟩
  · rw [next.drawn, first.drawn, List.append_assoc]
  · exact List.forall_mem_append.mpr ⟨first.within, next.within⟩
  · refine List.pairwise_append.mpr ⟨first.stacked, next.stacked, ?_⟩
    intro d early e late
    exact (first.before d early).trans (next.behind e late)
  · refine List.forall_mem_append.mpr ⟨first.behind, ?_⟩
    intro e late
    exact first.moved.trans (next.behind e late)
  · refine List.forall_mem_append.mpr ⟨?_, next.before⟩
    intro d early
    exact (first.before d early).trans next.moved

/-- A step that draws nothing. -/
theorem quiet (sound : m.Sound) (drawn : m.drawn = l.drawn) (moved : l.place ≤ m.place) :
    Drew l m [] :=
  ⟨sound, by rw [drawn, List.append_nil], List.forall_mem_nil _, .nil, List.forall_mem_nil _,
    List.forall_mem_nil _, moved⟩

theorem newPage (sound : l.Sound) : Drew l l.newPage [] :=
  quiet sound.newPage rfl (placeOf_le_of_lt (Nat.lt_succ_self _) _ _)

theorem mark (sound : l.Sound) (title : List UInt16) : Drew l (l.mark title) [] :=
  quiet (sound.mark title) rfl le_rfl

theorem down (sound : l.Sound) {d : ℚ} (forward : 0 ≤ d) : Drew l (l.down d) [] :=
  quiet (sound.down forward) rfl (placeOf_le.mpr (le_add_of_nonneg_right forward))

theorem draw (sound : l.Sound) (item : Item) {height : ℚ} (high : 0 < height)
    (fits : height ≤ l.room) :
    Drew l (l.draw item height) [⟨item, l.pages, l.y, height⟩] := by
  have bottom : l.y + height ≤ CONTENT_BOTTOM := by
    rw [Layout.room] at fits
    linarith
  refine ⟨sound.draw item high, rfl, ?_, List.pairwise_singleton _ _, ?_, ?_, ?_⟩
  · exact List.forall_mem_singleton.mpr ⟨sound.top, bottom⟩
  · exact List.forall_mem_singleton.mpr le_rfl
  · exact List.forall_mem_singleton.mpr le_rfl
  · exact placeOf_le.mpr (le_add_of_nonneg_right high.le)

/-- A fresh page is started unless what comes fits. -/
theorem ensure (sound : l.Sound) (height : ℚ) : Drew l (l.ensure height) [] := by
  unfold Layout.ensure
  split
  · exact newPage sound
  · exact refl sound

end Drew

theorem Layout.Sound.room_ensure {l : Layout} (sound : l.Sound) {height : ℚ} (low : height ≤ 444) :
    height ≤ (l.ensure height).room := by
  unfold Layout.ensure
  split
  · rw [Layout.room_newPage]
    exact low.trans (by norm_num)
  · next stays =>
      by_cases fits : height ≤ l.room
      · exact fits
      · have top : ¬ l.y > l.pageTop := fun above => stays ⟨not_le.mp fits, above⟩
        exact low.trans (sound.room_top top).1

section Stacks

variable {α : Type} (item : α → Item) (height : ℚ)

def stack (page : Nat) (top : ℚ) : List α → List Drawn
  | [] => []
  | a :: rest => ⟨item a, page, top, height⟩ :: stack page (top + height) rest

theorem page_of_mem_stack {page : Nat} {top : ℚ} {items : List α} {d : Drawn}
    (member : d ∈ stack item height page top items) : d.page = page := by
  induction items generalizing top with
  | nil => exact absurd member List.not_mem_nil
  | cons a rest ih =>
      rcases List.mem_cons.mp member with here | there
      · rw [here]
      · exact ih there

theorem exists_of_mem_stack {page : Nat} {top : ℚ} {items : List α} {d : Drawn}
    (member : d ∈ stack item height page top items) : ∃ a ∈ items, d.item = item a := by
  induction items generalizing top with
  | nil => exact absurd member List.not_mem_nil
  | cons a rest ih =>
      rcases List.mem_cons.mp member with here | there
      · exact ⟨a, List.mem_cons_self, by rw [here]⟩
      · obtain ⟨b, among, same⟩ := ih there
        exact ⟨b, List.mem_cons_of_mem a among, same⟩

/-- What is picked by the items alone is picked from them in their order. -/
theorem filterMap_stack {β : Type} {pick : Drawn → Option β} {value : α → Option β}
    (own : ∀ a page top, pick ⟨item a, page, top, height⟩ = value a) (page : Nat) (top : ℚ)
    (items : List α) :
    (stack item height page top items).filterMap pick = items.filterMap value := by
  induction items generalizing top with
  | nil => rfl
  | cons a rest ih =>
      rw [stack, List.filterMap_cons, List.filterMap_cons, own, ih]

variable {height}

theorem Drew.drawAll {l : Layout} (item : α → Item) (sound : l.Sound) (high : 0 < height) {items : List α}
    (fits : items.length * height ≤ l.room) :
    Drew l (l.drawAll item height items) (stack item height l.pages l.y items) := by
  induction items generalizing l with
  | nil => exact .refl sound
  | cons a rest ih =>
      rw [List.length_cons, Nat.cast_succ] at fits
      have nothing : (0 : ℚ) ≤ rest.length * height := mul_nonneg (Nat.cast_nonneg _) high.le
      have first := Drew.draw sound (item a) high (by linarith)
      have left : rest.length * height ≤ (l.draw (item a) height).room := by
        show rest.length * height ≤ CONTENT_BOTTOM - (l.y + height)
        rw [Layout.room] at fits
        linarith
      exact first.trans (ih first.sound left)

variable {item}

theorem Layout.drawAll_y (l : Layout) (items : List α) :
    (l.drawAll item height items).y = l.y + items.length * height := by
  induction items generalizing l with
  | nil =>
      show l.y = l.y + ((0 : ℕ) : ℚ) * height
      rw [Nat.cast_zero, zero_mul, add_zero]
  | cons a rest ih =>
      have := ih (l.draw (item a) height)
      show ((l.draw (item a) height).drawAll item height rest).y = _
      rw [this, List.length_cons, Nat.cast_succ]
      show l.y + height + rest.length * height = _
      ring

end Stacks

section Company

variable {α : Type} {pick : Drawn → Option α} {new more : List Drawn}

def NoneAlone (pick : Drawn → Option α) (new : List Drawn) : Prop :=
  ∀ d ∈ new, ∀ a, pick d = some a → ∃ e ∈ new, e.page = d.page ∧ ∃ b, pick e = some b ∧ b ≠ a

theorem NoneAlone.append (first : NoneAlone pick new) (next : NoneAlone pick more) :
    NoneAlone pick (new ++ more) := by
  intro d member a picked
  rcases List.mem_append.mp member with early | late
  · obtain ⟨e, among, together⟩ := first d early a picked
    exact ⟨e, List.mem_append_left more among, together⟩
  · obtain ⟨e, among, together⟩ := next d late a picked
    exact ⟨e, List.mem_append_right new among, together⟩

theorem NoneAlone.of_none (absent : ∀ d ∈ new, pick d = none) : NoneAlone pick new := by
  intro d member a picked
  rw [absent d member] at picked
  cases picked

/-- All are on one page, and each of these has another beside it. -/
theorem NoneAlone.of_page (page : Nat) (onPage : ∀ d ∈ new, d.page = page)
    (another : ∀ a ∈ new.filterMap pick, ∃ b ∈ new.filterMap pick, b ≠ a) : NoneAlone pick new := by
  intro d member a picked
  obtain ⟨b, among, other⟩ := another a (List.mem_filterMap.mpr ⟨d, member, picked⟩)
  obtain ⟨e, there, pickedE⟩ := List.mem_filterMap.mp among
  exact ⟨e, there, (onPage e there).trans (onPage d member).symm, b, pickedE, other⟩

end Company

def Plain (new : List Drawn) : Prop := ∀ d ∈ new, d.row = none ∧ d.bar = none ∧ d.line = none

section Headings

variable {l : Layout} {title : WinAnsiText} {caption : List WinAnsiText} {continued : Bool}

theorem Layout.heading_y :
    (l.heading title caption continued).y = l.y + headingHeight caption.length continued := by
  unfold Layout.heading headingHeight
  split
  · rfl
  · show (Layout.drawAll _ _ _ caption).y + 6 = _
    rw [drawAll_y]
    show l.y + 18 + caption.length * 11.5 + 6 = _
    ring

/-- A heading that fits is drawn on the page. -/
theorem Drew.heading (sound : l.Sound) (title : WinAnsiText) (caption : List WinAnsiText)
    (continued : Bool)
    (fits : headingHeight caption.length continued ≤ l.room) :
    ∃ new, Drew l (l.heading title caption continued) new ∧ Plain new := by
  unfold Layout.heading
  unfold headingHeight at fits
  split
  · next again =>
      rw [if_pos again] at fits
      exact ⟨_, Drew.draw sound _ (by norm_num) fits,
        List.forall_mem_singleton.mpr ⟨rfl, rfl, rfl⟩⟩
  · next first =>
      rw [if_neg first] at fits
      have nothing : (0 : ℚ) ≤ caption.length * 11.5 := by positivity
      have titled := Drew.draw sound (.title (fitText .bold 12 (PRINT_W - 9) title))
        (by norm_num : (0 : ℚ) < 18) (by linarith)
      have room : caption.length * (11.5 : ℚ) ≤ (l.draw (.title (fitText .bold 12 (PRINT_W - 9) title)) 18).room := by
        show caption.length * (11.5 : ℚ) ≤ CONTENT_BOTTOM - (l.y + 18)
        rw [Layout.room] at fits
        linarith
      have captioned := titled.trans (Drew.drawAll Item.caption titled.sound (by norm_num) room)
      have below := captioned.trans (Drew.down captioned.sound (d := 6) (by norm_num))
      refine ⟨_, below, ?_⟩
      intro d member
      rw [List.append_nil, List.mem_append, List.mem_singleton] at member
      rcases member with title | caption
      · rw [title]
        exact ⟨rfl, rfl, rfl⟩
      · obtain ⟨line, _, same⟩ := exists_of_mem_stack _ _ caption
        rw [Drawn.row, Drawn.bar, Drawn.line, same]
        exact ⟨rfl, rfl, rfl⟩

end Headings

end ZabbixPortal.Export.Pdf
