import ZabbixPortal.Services.Meters

/-! Which gauges of a dashboard get a meter of their own, and when meters share an id. -/

set_option autoImplicit false

namespace ZabbixPortal.Services

open Foundation

section Keys

-- `toLowerCase`, and the letters and digits of all scripts
variable (lower : List Char → List Char) (isLetter : Char → Bool)

def lettersOf (title : String) : List Char := (lower title.toList).filter isLetter

def latinOf (title : String) : List Char := (lower title.toList).filter isKeyChar

def Itemless (itemid : Option String) : Prop := itemOf itemid = none

/-- What a dashboard's meters hold to: each gauge has one, no two have one item or one title, and no two
share an id. -/
structure KeepsGaugesApart (dashboard : ZDashboard) : Prop where
  items : ∀ gauge ∈ gaugesOf dashboard, ∀ itemid, itemOf gauge.itemid = some itemid →
    ∃ d ∈ definitionsFrom lower dashboard, itemOf d.itemid = some itemid
  titles : ∀ gauge ∈ gaugesOf dashboard, Itemless gauge.itemid →
    ∃ d ∈ definitionsFrom lower dashboard, Itemless d.itemid ∧
      lettersOf lower isLetter d.title = lettersOf lower isLetter gauge.title
  onePerItem : (definitionsFrom lower dashboard).Pairwise fun a b =>
    ∀ itemid, itemOf a.itemid = some itemid → itemOf b.itemid ≠ some itemid
  onePerTitle : (definitionsFrom lower dashboard).Pairwise fun a b => Itemless a.itemid →
    Itemless b.itemid → lettersOf lower isLetter a.title ≠ lettersOf lower isLetter b.title
  ids : ((definitionsFrom lower dashboard).map (meterId lower)).Nodup

/-- Whether a to z and 0 to 9 tell apart what the letters and digits of all scripts do, among the gauges
without an item, and none has none of them while another has `untitled`. -/
structure LatinTells (dashboard : ZDashboard) : Prop where
  tells : ∀ a ∈ gaugesOf dashboard, ∀ b ∈ gaugesOf dashboard, Itemless a.itemid → Itemless b.itemid →
    latinOf lower a.title = latinOf lower b.title →
      lettersOf lower isLetter a.title = lettersOf lower isLetter b.title
  untitled : ∀ a ∈ gaugesOf dashboard, ∀ b ∈ gaugesOf dashboard, Itemless a.itemid → Itemless b.itemid →
    latinOf lower a.title = [] → latinOf lower b.title ≠ "untitled".toList

variable {lower isLetter}

theorem latinOf_lettersOf (ascii : ∀ c, isKeyChar c = true → isLetter c = true) (title : String) :
    latinOf lower title = (lettersOf lower isLetter title).filter isKeyChar := by
  unfold latinOf lettersOf
  rw [List.filter_filter]
  refine List.filter_congr fun c _ => ?_
  cases own : isKeyChar c with
  | false => rfl
  | true => rw [ascii c own]; rfl

theorem latinOf_congr (ascii : ∀ c, isKeyChar c = true → isLetter c = true) {left right : String}
    (same : lettersOf lower isLetter left = lettersOf lower isLetter right) :
    latinOf lower left = latinOf lower right := by
  rw [latinOf_lettersOf ascii, latinOf_lettersOf ascii, same]

def keyOf (lower : List Char → List Char) (d : MeterDefinition) : String :=
  match itemOf d.itemid with
  | some itemid => "item:" ++ itemid
  | none => "title:" ++ titleKey lower d.title

theorem append_ne_of_head {left right : String} {c d : Char} {restC restD : List Char}
    (headC : left.toList = c :: restC) (headD : right.toList = d :: restD) (apart : c ≠ d)
    (a b : String) : left ++ a ≠ right ++ b := by
  intro same
  have chars := congrArg String.toList same
  rw [String.toList_append, String.toList_append, headC, headD] at chars
  exact apart (List.cons.inj chars).1

theorem append_right_inj {front a b : String} (same : front ++ a = front ++ b) : a = b := by
  have chars := congrArg String.toList same
  rw [String.toList_append, String.toList_append] at chars
  exact String.toList_inj.mp (List.append_cancel_left chars)

theorem titleKey_inj {left right : String} :
    titleKey lower left = titleKey lower right ↔ latinOf lower left = latinOf lower right := by
  unfold titleKey latinOf
  exact String.ofList_inj

theorem titleKey_eq_iff {title key : String} :
    titleKey lower title = key ↔ latinOf lower title = key.toList := by
  unfold titleKey latinOf
  rw [← String.toList_inj, String.toList_ofList]

/-- Two meters with the same key have the same item, or none and titles with the same key. -/
theorem keyOf_eq_iff (a b : MeterDefinition) : keyOf lower a = keyOf lower b ↔
    (∃ itemid, itemOf a.itemid = some itemid ∧ itemOf b.itemid = some itemid) ∨
      (Itemless a.itemid ∧ Itemless b.itemid ∧ latinOf lower a.title = latinOf lower b.title) := by
  unfold keyOf Itemless
  cases itemA : itemOf a.itemid with
  | some left =>
      cases itemB : itemOf b.itemid with
      | some right =>
          constructor
          · intro same
            exact .inl ⟨left, rfl, by rw [append_right_inj same]⟩
          · intro either
            cases either with
            | inl sameItem =>
                obtain ⟨itemid, isLeft, isRight⟩ := sameItem
                rw [Option.some.inj isLeft, Option.some.inj isRight]
            | inr noMore => cases noMore.1
      | none =>
          refine iff_of_false (append_ne_of_head rfl rfl (by decide) _ _) ?_
          intro either
          cases either with
          | inl sameItem => obtain ⟨_, _, impossible⟩ := sameItem; cases impossible
          | inr noMore => cases noMore.1
  | none =>
      cases itemB : itemOf b.itemid with
      | some right =>
          refine iff_of_false (append_ne_of_head rfl rfl (by decide) _ _) ?_
          intro either
          cases either with
          | inl sameItem => obtain ⟨_, impossible, _⟩ := sameItem; cases impossible
          | inr noMore => cases noMore.2.1
      | none =>
          constructor
          · intro same
            exact .inr ⟨rfl, rfl, titleKey_inj.mp (append_right_inj same)⟩
          · intro either
            cases either with
            | inl sameItem => obtain ⟨_, impossible, _⟩ := sameItem; cases impossible
            | inr titles => rw [titleKey_inj.mpr titles.2.2]

/-- Two meters with the same id have the same key, or one has nothing from a to z and 0 to 9 in its title
and the other `untitled`. -/
theorem meterId_eq {a b : MeterDefinition} (same : meterId lower a = meterId lower b) :
    keyOf lower a = keyOf lower b ∨ (Itemless a.itemid ∧ Itemless b.itemid ∧
      ((latinOf lower a.title = [] ∧ latinOf lower b.title = "untitled".toList) ∨
        (latinOf lower b.title = [] ∧ latinOf lower a.title = "untitled".toList))) := by
  rw [keyOf_eq_iff]
  unfold meterId at same
  unfold Itemless
  cases itemA : itemOf a.itemid with
  | some left =>
      cases itemB : itemOf b.itemid with
      | some right =>
          simp only [itemA, itemB] at same
          exact .inl (.inl ⟨left, rfl, by rw [append_right_inj same]⟩)
      | none =>
          simp only [itemA, itemB] at same
          exact absurd same (append_ne_of_head rfl rfl (by decide) _ _)
  | none =>
      cases itemB : itemOf b.itemid with
      | some right =>
          simp only [itemA, itemB] at same
          exact absurd same (append_ne_of_head rfl rfl (by decide) _ _)
      | none =>
          simp only [itemA, itemB] at same
          have named := append_right_inj same
          by_cases emptyA : titleKey lower a.title = ""
          · by_cases emptyB : titleKey lower b.title = ""
            · exact .inl (.inr ⟨rfl, rfl, titleKey_inj.mp (emptyA.trans emptyB.symm)⟩)
            · rw [if_pos emptyA, if_neg emptyB] at named
              exact .inr ⟨rfl, rfl, .inl ⟨titleKey_eq_iff.mp emptyA, titleKey_eq_iff.mp named.symm⟩⟩
          · by_cases emptyB : titleKey lower b.title = ""
            · rw [if_neg emptyA, if_pos emptyB] at named
              exact .inr ⟨rfl, rfl, .inr ⟨titleKey_eq_iff.mp emptyB, titleKey_eq_iff.mp named⟩⟩
            · rw [if_neg emptyA, if_neg emptyB] at named
              exact .inl (.inr ⟨rfl, rfl, titleKey_inj.mp named⟩)

theorem meterId_of_untitled {a b : MeterDefinition} (noneA : Itemless a.itemid) (noneB : Itemless b.itemid)
    (empty : latinOf lower a.title = []) (untitled : latinOf lower b.title = "untitled".toList) :
    meterId lower a = meterId lower b := by
  have keyA : titleKey lower a.title = "" := titleKey_eq_iff.mpr empty
  have keyB : titleKey lower b.title = "untitled" := titleKey_eq_iff.mpr untitled
  unfold meterId
  simp only [show itemOf a.itemid = none from noneA, show itemOf b.itemid = none from noneB, keyA, keyB,
    if_true]
  rfl

variable {dashboard : ZDashboard}

theorem nodup_keys (dashboard : ZDashboard) : ((definitionsFrom lower dashboard).map (keyOf lower)).Nodup := by
  unfold definitionsFrom
  rw [List.map_map]
  exact nodup_map_firsts (gaugesOf dashboard)

theorem pairwise_keys (lower : List Char → List Char) (dashboard : ZDashboard) :
    (definitionsFrom lower dashboard).Pairwise fun a b => keyOf lower a ≠ keyOf lower b :=
  List.pairwise_map.mp (nodup_keys dashboard)

theorem eq_of_keyOf {a b : MeterDefinition} (inA : a ∈ definitionsFrom lower dashboard)
    (inB : b ∈ definitionsFrom lower dashboard) (same : keyOf lower a = keyOf lower b) : a = b :=
  List.inj_on_of_nodup_map (nodup_keys dashboard) inA inB same

/-- Each meter comes from a gauge, and each gauge has a meter with its key. -/
theorem exists_gauge {d : MeterDefinition} (member : d ∈ definitionsFrom lower dashboard) :
    ∃ gauge ∈ gaugesOf dashboard, gauge.definition = d := by
  obtain ⟨gauge, kept, rfl⟩ := List.mem_map.mp member
  exact ⟨gauge, mem_of_mem_firsts kept, rfl⟩

theorem exists_definition (lower : List Char → List Char) {gauge : Gauge}
    (member : gauge ∈ gaugesOf dashboard) :
    ∃ d ∈ definitionsFrom lower dashboard, keyOf lower d = keyOf lower gauge.definition := by
  obtain ⟨kept, among, same⟩ := exists_mem_firsts (gaugeKey lower) member
  exact ⟨kept.definition, List.mem_map_of_mem among, same⟩

theorem exists_same_latin {gauge : Gauge} (member : gauge ∈ gaugesOf dashboard)
    (itemless : Itemless gauge.itemid) :
    ∃ d ∈ definitionsFrom lower dashboard, Itemless d.itemid ∧
      latinOf lower d.title = latinOf lower gauge.title := by
  obtain ⟨d, among, same⟩ := exists_definition lower member
  cases (keyOf_eq_iff d gauge.definition).mp same with
  | inl sameItem =>
      obtain ⟨itemid, _, own⟩ := sameItem
      cases own.symm.trans itemless
  | inr titles => exact ⟨d, among, titles.1, titles.2.2⟩

theorem keepsGaugesApart_of_tells (ascii : ∀ c, isKeyChar c = true → isLetter c = true)
    (latin : LatinTells lower isLetter dashboard) : KeepsGaugesApart lower isLetter dashboard := by
  have apart := pairwise_keys lower dashboard
  refine ⟨?_, ?_, apart.imp ?_, apart.imp ?_, List.pairwise_map.mpr (apart.imp_of_mem ?_)⟩
  · intro gauge member itemid own
    obtain ⟨d, among, same⟩ := exists_definition lower member
    cases (keyOf_eq_iff d gauge.definition).mp same with
    | inl sameItem =>
        obtain ⟨other, isItem, isOwn⟩ := sameItem
        exact ⟨d, among, isItem.trans (isOwn.symm.trans own)⟩
    | inr titles => cases own.symm.trans titles.2.1
  · intro gauge member itemless
    obtain ⟨d, among, nothing, same⟩ := exists_same_latin member itemless
    obtain ⟨other, isGauge, rfl⟩ := exists_gauge among
    exact ⟨other.definition, among, nothing, latin.tells other isGauge gauge member nothing itemless same⟩
  · intro a b differ itemid ownA ownB
    exact differ ((keyOf_eq_iff a b).mpr (.inl ⟨itemid, ownA, ownB⟩))
  · intro a b differ noneA noneB same
    exact differ ((keyOf_eq_iff a b).mpr (.inr ⟨noneA, noneB, latinOf_congr ascii same⟩))
  · intro a b inA inB differ same
    obtain ⟨gaugeA, isGaugeA, rfl⟩ := exists_gauge inA
    obtain ⟨gaugeB, isGaugeB, rfl⟩ := exists_gauge inB
    cases meterId_eq same with
    | inl sameKey => exact differ sameKey
    | inr clash =>
        obtain ⟨noneA, noneB, either⟩ := clash
        cases either with
        | inl first => exact latin.untitled gaugeA isGaugeA gaugeB isGaugeB noneA noneB first.1 first.2
        | inr second => exact latin.untitled gaugeB isGaugeB gaugeA isGaugeA noneB noneA second.1 second.2

theorem tells_of_keepsGaugesApart (ascii : ∀ c, isKeyChar c = true → isLetter c = true)
    (keeps : KeepsGaugesApart lower isLetter dashboard) : LatinTells lower isLetter dashboard := by
  refine ⟨?_, ?_⟩
  · intro a inA b inB noneA noneB same
    obtain ⟨d, amongD, noneD, lettersD⟩ := keeps.titles a inA noneA
    obtain ⟨e, amongE, noneE, lettersE⟩ := keeps.titles b inB noneB
    have latin : latinOf lower d.title = latinOf lower e.title :=
      (latinOf_congr ascii lettersD).trans (same.trans (latinOf_congr ascii lettersE).symm)
    have one := eq_of_keyOf amongD amongE ((keyOf_eq_iff d e).mpr (.inr ⟨noneD, noneE, latin⟩))
    rw [← lettersD, ← lettersE, one]
  · intro a inA b inB noneA noneB empty untitled
    obtain ⟨d, amongD, noneD, sameD⟩ := exists_same_latin inA noneA
    obtain ⟨e, amongE, noneE, sameE⟩ := exists_same_latin inB noneB
    have clash := meterId_of_untitled noneD noneE (sameD.trans empty) (sameE.trans untitled)
    have one : d = e := List.inj_on_of_nodup_map keeps.ids amongD amongE clash
    rw [← one, sameD, empty] at sameE
    rw [← sameE] at untitled
    cases untitled

/-- The gauges of a dashboard are kept apart exactly when a to z and 0 to 9 tell their titles apart. -/
theorem keepsGaugesApart_iff (ascii : ∀ c, isKeyChar c = true → isLetter c = true)
    (dashboard : ZDashboard) :
    KeepsGaugesApart lower isLetter dashboard ↔ LatinTells lower isLetter dashboard :=
  ⟨tells_of_keepsGaugesApart ascii, keepsGaugesApart_of_tells ascii⟩

end Keys

section Dashboards

def isCyrillicOrLatin (c : Char) : Bool := c.isAlphanum || (0x400 ≤ c.toNat && c.toNat ≤ 0x4FF)

def titled (titles : List String) : ZDashboard where
  pages := some [⟨none, some (titles.zipIdx.map fun title =>
    ⟨"gauge", some title.1, none, some (.number title.2), none⟩)⟩]

/-- Of two gauges with Cyrillic titles the second has no meter. -/
theorem keepsGaugesApart_cyrillic :
    ¬ KeepsGaugesApart (List.map Char.toLower) isCyrillicOrLatin (titled ["москва", "казань"]) := by
  intro keeps
  have lost : ∀ d ∈ definitionsFrom (List.map Char.toLower) (titled ["москва", "казань"]),
      d.title = "москва" := by
    decide +kernel
  have second : ∃ gauge ∈ gaugesOf (titled ["москва", "казань"]), Itemless gauge.itemid ∧
      gauge.title = "казань" := ⟨_, .tail _ (.head _), rfl, by decide +kernel⟩
  obtain ⟨gauge, member, itemless, title⟩ := second
  obtain ⟨d, among, _, same⟩ := keeps.titles gauge member itemless
  rw [lost d among, title] at same
  exact absurd same (by decide +kernel)

theorem isLetter_of_isKeyChar (c : Char) (own : isKeyChar c = true) : isCyrillicOrLatin c = true := by
  unfold isKeyChar at own
  unfold isCyrillicOrLatin Char.isAlphanum Char.isAlpha Char.isUpper Char.isLower Char.isDigit
  simp only [Bool.or_eq_true, Bool.and_eq_true, decide_eq_true_eq] at own ⊢
  cases own with
  | inl letter => exact .inl (.inl (.inr letter))
  | inr digit => exact .inl (.inr digit)

/-- Two titles that differ in a digit. -/
theorem keepsGaugesApart_iff_numbered :
    KeepsGaugesApart (List.map Char.toLower) isCyrillicOrLatin
      (titled ["SITE FOUR INTERNET 1", "SITE FOUR INTERNET 2"]) ↔
    LatinTells (List.map Char.toLower) isCyrillicOrLatin
      (titled ["SITE FOUR INTERNET 1", "SITE FOUR INTERNET 2"]) :=
  keepsGaugesApart_iff isLetter_of_isKeyChar _

end Dashboards

end ZabbixPortal.Services
