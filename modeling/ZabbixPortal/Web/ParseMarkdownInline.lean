import ZabbixPortal.Web.ParseMarkdown
import Mathlib.Data.List.Induction

/-! What the inline parser makes of a text: nothing of it is lost, and only what is closed is
marked. -/

set_option autoImplicit false

namespace ZabbixPortal.Web

open Foundation

/-! ## Writing the markers back -/

mutual

def Inline.write : Inline → List Char
  | .text text => text
  | .bold children => STARS ++ writeAll children ++ STARS
  | .code text => BACKTICK ++ text ++ BACKTICK

def writeAll : List Inline → List Char
  | [] => []
  | node :: rest => node.write ++ writeAll rest

end

mutual

def Inline.codes : Inline → List (List Char)
  | .text _ => []
  | .bold children => codesIn children
  | .code text => [text]

def codesIn : List Inline → List (List Char)
  | [] => []
  | node :: rest => node.codes ++ codesIn rest

end

@[simp] theorem writeAll_append (front back : List Inline) :
    writeAll (front ++ back) = writeAll front ++ writeAll back := by
  induction front with
  | nil => simp [writeAll]
  | cons node rest ih => simp [writeAll, ih]

@[simp] theorem codesIn_append (front back : List Inline) :
    codesIn (front ++ back) = codesIn front ++ codesIn back := by
  induction front with
  | nil => simp [codesIn]
  | cons node rest ih => simp [codesIn, ih]

/-! ## What a marker encloses -/

/-- A text that closing marks can enclose: it is not empty, and the first mark after it is the
closing one. -/
structure Encloses (mark inner : List Char) : Prop where
  filled : inner ≠ []
  first : ¬ mark <:+: inner ++ mark.dropLast

theorem cutAt_eq {mark s inner after : List Char} (cut : cutAt mark s = some (inner, after)) :
    s = inner ++ mark ++ after := by
  induction s generalizing inner with
  | nil => cases cut
  | cons c rest ih =>
      rw [cutAt] at cut
      split at cut
      · next starts =>
          cases cut
          obtain ⟨more, split⟩ := List.isPrefixOf_iff_prefix.mp starts
          rw [← split]
          simp
      · obtain ⟨found, later, same⟩ := Option.map_eq_some_iff.mp cut
        cases same
        rw [ih later]
        simp

theorem dropLast_front (mark inner after : List Char) :
    inner ++ mark.dropLast <+: inner ++ mark ++ after :=
  ((List.prefix_append_right_inj inner).mpr (List.dropLast_prefix mark)).trans
    (List.prefix_append _ after)

/-- No mark begins before the cut. -/
theorem cutAt_first {mark s inner after : List Char} (marked : mark ≠ [])
    (cut : cutAt mark s = some (inner, after)) : ¬ mark <:+: inner ++ mark.dropLast := by
  induction s generalizing inner with
  | nil => cases cut
  | cons c rest ih =>
      have whole := cutAt_eq cut
      rw [cutAt] at cut
      split at cut
      · cases cut
        intro inside
        have positive := List.length_pos_iff.mpr marked
        have short := inside.length_le
        simp only [List.nil_append, List.length_dropLast] at short
        omega
      · next starts =>
          obtain ⟨found, later, same⟩ := Option.map_eq_some_iff.mp cut
          cases same
          intro inside
          rcases List.infix_cons_iff.mp inside with front | inner
          · refine starts (List.isPrefixOf_iff_prefix.mpr (front.trans ?_))
            rw [whole]
            exact dropLast_front mark (c :: found.1) found.2
          · exact ih later inner

/-- The cut is at the first mark. -/
theorem cutAt_of_first {mark inner : List Char} (after : List Char) (marked : mark ≠ [])
    (first : ¬ mark <:+: inner ++ mark.dropLast) :
    cutAt mark (inner ++ mark ++ after) = some (inner, after) := by
  induction inner with
  | nil =>
      obtain ⟨c, rest, rfl⟩ := List.exists_cons_of_ne_nil marked
      have starts : (c :: rest).isPrefixOf (c :: (rest ++ after)) = true :=
        List.isPrefixOf_iff_prefix.mpr ⟨after, rfl⟩
      simp only [List.nil_append, List.cons_append, cutAt, starts, if_true]
      simp
  | cons c inner ih =>
      have later := ih fun inside => first (inside.trans (List.suffix_cons c _).isInfix)
      have starts : mark.isPrefixOf (c :: (inner ++ mark ++ after)) = false := by
        rw [Bool.eq_false_iff]
        intro front
        refine first (List.IsPrefix.isInfix ?_)
        refine List.prefix_of_prefix_length_le (List.isPrefixOf_iff_prefix.mp front)
          (dropLast_front mark (c :: inner) after) ?_
        simp only [List.cons_append, List.length_cons, List.length_append, List.length_dropLast]
        omega
      simp only [List.cons_append, cutAt, starts, Bool.false_eq_true, if_false, later,
        Option.map_some]

theorem spanAt_eq_some_iff {mark s inner after : List Char} (marked : mark ≠ []) :
    spanAt mark s = some (inner, after) ↔
      s = mark ++ inner ++ mark ++ after ∧ Encloses mark inner := by
  constructor
  · intro span
    unfold spanAt at span
    split at span
    · next starts =>
        obtain ⟨more, split⟩ := List.isPrefixOf_iff_prefix.mp starts
        rw [← split, List.drop_left] at span
        split at span
        · next cut found =>
            split at span
            · cases span
            · next filled =>
                cases span
                refine ⟨?_, filled, cutAt_first marked found⟩
                rw [← split, cutAt_eq found]
                simp
        · cases span
    · cases span
  · rintro ⟨rfl, filled, first⟩
    have starts : mark.isPrefixOf (mark ++ inner ++ mark ++ after) = true :=
      List.isPrefixOf_iff_prefix.mpr ⟨inner ++ mark ++ after, by simp⟩
    have rest : (mark ++ inner ++ mark ++ after).drop mark.length = inner ++ mark ++ after := by
      simp
    rw [spanAt, if_pos starts, rest, cutAt_of_first after marked first]
    simp only [if_neg filled]

/-! ## Joining texts -/

theorem merge_append (front back : List Inline) :
    merge (front ++ back) = back.foldl mergeNode (merge front) := by
  simp [merge]

/-- What is merged before a node that is not text has no part in what comes after it. -/
theorem mergeNode_append {out more : List Inline} (n : Inline)
    (apart : more ≠ [] ∨ ∀ text, out.getLast? ≠ some (.text text)) :
    mergeNode (out ++ more) n = out ++ mergeNode more n := by
  cases more with
  | nil =>
      have last := apart.resolve_left (by simp)
      rw [List.append_nil]
      cases n with
      | text text =>
          cases found : out.getLast? with
          | none => simp [mergeNode, found]
          | some node =>
              cases node with
              | text prev => exact absurd found (last prev)
              | bold children => simp [mergeNode, found]
              | code code => simp [mergeNode, found]
      | bold children => simp [mergeNode]
      | code code => simp [mergeNode]
  | cons node rest =>
      have filled : node :: rest ≠ [] := List.cons_ne_nil _ _
      have same : (out ++ node :: rest).getLast? = (node :: rest).getLast? := by
        rw [List.getLast?_append_of_ne_nil _ filled]
      have front : (out ++ node :: rest).dropLast = out ++ (node :: rest).dropLast :=
        List.dropLast_append_of_ne_nil filled
      cases n with
      | text text =>
          cases found : (node :: rest).getLast? with
          | none => simp [mergeNode, same, found]
          | some last =>
              cases last with
              | text prev => simp only [mergeNode, same, found, front, List.append_assoc]
              | bold children => simp [mergeNode, same, found]
              | code code => simp [mergeNode, same, found]
      | bold children => simp [mergeNode]
      | code code => simp [mergeNode]

theorem foldl_mergeNode_append {out : List Inline}
    (apart : ∀ text, out.getLast? ≠ some (.text text)) (rest : List Inline) :
    rest.foldl mergeNode out = out ++ merge rest := by
  induction rest using List.reverseRecOn with
  | nil => simp [merge]
  | append_singleton rest n ih =>
      rw [List.foldl_append, ih, merge_append]
      simp only [List.foldl_cons, List.foldl_nil]
      exact mergeNode_append n (.inr apart)

/-- A node that is not text is merged with nothing. -/
theorem merge_apart (front rest : List Inline) {node : Inline}
    (apart : ∀ text, node ≠ .text text) :
    merge (front ++ node :: rest) = merge front ++ node :: merge rest := by
  rw [merge_append, List.foldl_cons]
  have own : mergeNode (merge front) node = merge front ++ [node] := by
    cases node with
    | text text => exact absurd rfl (apart text)
    | bold children => rfl
    | code code => rfl
  rw [own, foldl_mergeNode_append (by simpa using apart)]
  simp

@[simp] theorem merge_flush (buf : List Char) : merge (flush buf) = flush buf := by
  by_cases empty : buf = [] <;> simp [flush, empty, merge, mergeNode]

theorem merge_flush_char (buf : List Char) (c : Char) :
    merge (flush buf ++ [.text [c]]) = flush (buf ++ [c]) := by
  by_cases empty : buf = [] <;> simp [flush, empty, merge, mergeNode]

theorem writeAll_mergeNode (out : List Inline) (n : Inline) :
    writeAll (mergeNode out n) = writeAll out ++ n.write := by
  unfold mergeNode
  split
  · next text prev last =>
      obtain ⟨front, rfl⟩ := List.getLast?_eq_some_iff.mp last
      simp [writeAll, Inline.write]
  · simp [writeAll]

theorem codesIn_mergeNode (out : List Inline) (n : Inline) :
    codesIn (mergeNode out n) = codesIn out ++ n.codes := by
  unfold mergeNode
  split
  · next text prev last =>
      obtain ⟨front, rfl⟩ := List.getLast?_eq_some_iff.mp last
      simp [codesIn, Inline.codes]
  · simp [codesIn]

@[simp] theorem writeAll_merge (nodes : List Inline) : writeAll (merge nodes) = writeAll nodes := by
  induction nodes using List.reverseRecOn with
  | nil => rfl
  | append_singleton nodes n ih =>
      rw [merge_append]
      simp [writeAll_mergeNode, ih, writeAll]

@[simp] theorem codesIn_merge (nodes : List Inline) : codesIn (merge nodes) = codesIn nodes := by
  induction nodes using List.reverseRecOn with
  | nil => rfl
  | append_singleton nodes n ih =>
      rw [merge_append]
      simp [codesIn_mergeNode, ih, codesIn]

/-- Merging makes no bold node. -/
theorem mem_of_mem_merge {nodes : List Inline} {children : List Inline}
    (member : .bold children ∈ merge nodes) : .bold children ∈ nodes := by
  induction nodes using List.reverseRecOn with
  | nil => cases member
  | append_singleton nodes n ih =>
      rw [merge_append, List.foldl_cons, List.foldl_nil] at member
      unfold mergeNode at member
      split at member
      · rcases List.mem_append.mp member with earlier | own
        · exact List.mem_append_left _ (ih (List.dropLast_subset _ earlier))
        · cases List.mem_singleton.mp own
      · rcases List.mem_append.mp member with earlier | own
        · exact List.mem_append_left _ (ih earlier)
        · exact List.mem_append_right _ own

theorem mergeNode_text_text (out : List Inline) (first second : List Char) :
    mergeNode (mergeNode out (.text first)) (.text second) =
      mergeNode out (.text (first ++ second)) := by
  cases last : out.getLast? with
  | none => simp [mergeNode, last]
  | some node =>
      cases node with
      | text prev => simp [mergeNode, last]
      | bold children => simp [mergeNode, last]
      | code code => simp [mergeNode, last]

/-- Nodes that are merged already are merged with others as those they come from. -/
theorem foldl_mergeNode_merge (out nodes : List Inline) :
    (merge nodes).foldl mergeNode out = nodes.foldl mergeNode out := by
  induction nodes using List.reverseRecOn with
  | nil => rfl
  | append_singleton nodes n ih =>
      rw [merge_append, List.foldl_cons, List.foldl_nil, List.foldl_append, List.foldl_cons,
        List.foldl_nil, ← ih]
      cases n with
      | text text =>
          cases last : (merge nodes).getLast? with
          | none => simp [mergeNode, last, List.foldl_append]
          | some node =>
              cases node with
              | text prev =>
                  obtain ⟨front, split⟩ := List.getLast?_eq_some_iff.mp last
                  have joined : mergeNode (merge nodes) (.text text) =
                      front ++ [.text (prev ++ text)] := by
                    simp [mergeNode, split]
                  rw [joined, split, List.foldl_append, List.foldl_append]
                  exact (mergeNode_text_text _ _ _).symm
              | bold children => simp [mergeNode, last, List.foldl_append]
              | code code => simp [mergeNode, last, List.foldl_append]
      | bold children => simp [mergeNode, List.foldl_append]
      | code code => simp [mergeNode, List.foldl_append]

theorem merge_merge_append (front back : List Inline) :
    merge (merge front ++ back) = merge (front ++ back) := by
  rw [merge_append, merge_append]
  congr 1
  exact foldl_mergeNode_merge [] front

theorem merge_append_merge (front back : List Inline) :
    merge (front ++ merge back) = merge (front ++ back) := by
  rw [merge_append, merge_append, foldl_mergeNode_merge]

theorem mem_codesIn {code : List Char} {nodes : List Inline} :
    code ∈ codesIn nodes ↔ ∃ node ∈ nodes, code ∈ node.codes := by
  induction nodes with
  | nil => simp [codesIn]
  | cons node rest ih => simp [codesIn, ih]

/-! ## The meaning of the markers -/

def Opens (mark s : List Char) : Prop :=
  ∃ inner after, s = mark ++ inner ++ mark ++ after ∧ Encloses mark inner

/-- A text and its nodes, one for each literal character: a marker counts where it is closed with
something inside, and stays literal where it is not. -/
inductive Marked : Bool → List Char → List Inline → Prop where
  | nil {allowBold : Bool} : Marked allowBold [] []
  | code {allowBold : Bool} {inner after : List Char} {nodes : List Inline} :
      Encloses BACKTICK inner → Marked allowBold after nodes →
      Marked allowBold (BACKTICK ++ inner ++ BACKTICK ++ after) (.code inner :: nodes)
  | bold {inner after : List Char} {children nodes : List Inline} :
      Encloses STARS inner → Marked false inner children → Marked true after nodes →
      Marked true (STARS ++ inner ++ STARS ++ after) (.bold (merge children) :: nodes)
  | literal {allowBold : Bool} {c : Char} {rest : List Char} {nodes : List Inline} :
      ¬ Opens BACKTICK (c :: rest) → (allowBold = true → ¬ Opens STARS (c :: rest)) →
      Marked allowBold rest nodes → Marked allowBold (c :: rest) (.text [c] :: nodes)

theorem not_opens {mark s : List Char} (marked : mark ≠ []) (absent : spanAt mark s = none) :
    ¬ Opens mark s := by
  rintro ⟨inner, after, split, encloses⟩
  rw [(spanAt_eq_some_iff marked).mpr ⟨split, encloses⟩] at absent
  cases absent

theorem backtick_ne_nil : BACKTICK ≠ [] := List.cons_ne_nil _ _

theorem stars_ne_nil : STARS ≠ [] := List.cons_ne_nil _ _

/-- By induction on the scan: the nodes are those of the text, with the literal ones joined. -/
theorem exists_marked (allowBold : Bool) (buf s : List Char) :
    ∃ nodes, Marked allowBold s nodes ∧
      parseFrom allowBold buf s = merge (flush buf ++ nodes) := by
  fun_induction parseFrom allowBold buf s with
  | case1 allowBold buf => exact ⟨[], .nil, by simp⟩
  | case2 allowBold buf c rest inner after code ih =>
      obtain ⟨nodes, marked, same⟩ := ih
      obtain ⟨split, encloses⟩ := (spanAt_eq_some_iff backtick_ne_nil).mp code
      rw [split]
      refine ⟨.code inner :: nodes, .code encloses marked, ?_⟩
      rw [merge_apart _ _ (by simp), merge_flush, same]
      rfl
  | case3 allowBold buf c rest absent inner after bold innerIH afterIH =>
      obtain ⟨children, inside, innerSame⟩ := innerIH
      obtain ⟨nodes, marked, afterSame⟩ := afterIH
      unfold boldAt at bold
      split at bold
      · next allowed =>
          subst allowed
          obtain ⟨split, encloses⟩ := (spanAt_eq_some_iff stars_ne_nil).mp bold
          rw [split]
          refine ⟨.bold (merge children) :: nodes, .bold encloses inside marked, ?_⟩
          rw [merge_apart _ _ (by simp), merge_flush, innerSame, afterSame]
          rfl
      · cases bold
  | case4 allowBold buf c rest noCode noBold ih =>
      obtain ⟨nodes, marked, same⟩ := ih
      refine ⟨.text [c] :: nodes, .literal (not_opens backtick_ne_nil noCode) ?_ marked, ?_⟩
      · intro allowed
        subst allowed
        exact not_opens stars_ne_nil noBold
      · have joined : flush buf ++ .text [c] :: nodes = (flush buf ++ [.text [c]]) ++ nodes := by simp
        rw [same, joined, merge_append, merge_append (flush buf ++ [Inline.text [c]]), merge_flush,
          merge_flush_char]

namespace Marked

variable {allowBold : Bool} {s : List Char} {nodes : List Inline}

/-- With the markers written back the nodes are the text. -/
theorem writeAll_eq (marked : Marked allowBold s nodes) : writeAll nodes = s := by
  induction marked with
  | nil => rfl
  | code _ _ ih => simp [writeAll, Inline.write, ih]
  | bold _ _ _ childrenIH ih => simp [writeAll, Inline.write, childrenIH, ih]
  | literal _ _ _ ih => simp [writeAll, Inline.write, ih]

/-- Every code span, in bold or not, has a content, and no backtick in it. -/
theorem codes (marked : Marked allowBold s nodes) :
    ∀ code ∈ codesIn nodes, code ≠ [] ∧ '\x60' ∉ code := by
  induction marked with
  | nil => simp [codesIn]
  | @code _ inner _ _ encloses _ ih =>
      intro code member
      rcases List.mem_append.mp member with own | later
      · rw [List.mem_singleton.mp own]
        refine ⟨encloses.filled, fun inside => encloses.first ?_⟩
        obtain ⟨front, back, split⟩ := List.append_of_mem inside
        exact ⟨front, back, by rw [split]; simp [BACKTICK]⟩
      · exact ih code later
  | bold _ _ _ childrenIH ih =>
      intro code member
      rcases List.mem_append.mp member with own | later
      · rw [Inline.codes, codesIn_merge] at own
        exact childrenIH code own
      · exact ih code later
  | literal _ _ _ ih => exact fun code member => ih code (by simpa [codesIn, Inline.codes] using member)

theorem no_bold (marked : Marked false s nodes) : ∀ children, .bold children ∉ nodes := by
  generalize plain : false = allowBold at marked
  induction marked with
  | nil => simp
  | code _ _ ih => simpa using ih plain
  | bold => cases plain
  | literal _ _ _ ih => simpa using ih plain

/-- No bold node holds another one. -/
theorem flat (marked : Marked allowBold s nodes) :
    ∀ children, .bold children ∈ nodes → ∀ inner, .bold inner ∉ children := by
  induction marked with
  | nil => simp
  | code _ _ ih => simpa using ih
  | @bold inner after own nodes _ inside _ _ ih =>
      intro children member deeper nested
      rcases List.mem_cons.mp member with first | later
      · cases first
        exact inside.no_bold deeper (mem_of_mem_merge nested)
      · exact ih children later deeper nested
  | literal _ _ _ ih => simpa using ih

end Marked

end ZabbixPortal.Web
