import Promptline.Proofs.Indent.Depth

set_option autoImplicit false

namespace Promptline.Indent

def Kind.rise : Kind → Nat
  | .openDouble => 2
  | .openSingle => 1
  | .softUnindent | .sharing | .closeParen | .terminator => 0

/-- A terminator closes any block, a parenthesis only a block one unit deep, as an open parenthesis
opens it. -/
inductive Closes : Kind → Kind → Prop
  | terminator {opener : Kind} : 0 < opener.rise → Closes opener .terminator
  | paren : Closes .openSingle .closeParen

inductive Nested : List Kind → Prop
  | nil : Nested []
  | arm {ks : List Kind} : Nested ks → Nested (.softUnindent :: ks)
  | block {opener closer : Kind} {inner ks : List Kind} : Closes opener closer → Nested inner →
      Nested ks → Nested (opener :: (inner ++ closer :: ks))

def StartsInPlace : List Token → Prop
  | .rule kind :: _ => 0 < kind.rise
  | _ => True

def BalancedLine (table : Table) (line : Text) : Prop :=
  StartsInPlace (tokens table line) ∧ Nested (kindsOf (tokens table line))

def ArmLine (table : Table) (line : Text) : Prop :=
  ∃ rest, tokens table line = .rule .softUnindent :: rest ∧ Nested (kindsOf rest)

def OpenerLine (table : Table) (opener : Kind) (line : Text) : Prop :=
  StartsInPlace (tokens table line) ∧ 0 < opener.rise ∧
    ∃ before after, kindsOf (tokens table line) = before ++ opener :: after ∧
      Nested before ∧ Nested after

def ClosingLine (table : Table) (opener : Kind) (line : Text) : Prop :=
  ∃ closer rest, tokens table line = .rule closer :: rest ∧ Closes opener closer ∧
    Nested (kindsOf rest)

def SharingLine (table : Table) (line : Text) : Prop :=
  ∃ rest, tokens table line = .rule .sharing :: rest ∧ Nested (kindsOf rest)

/-- Lines of a program at depth `d`, with the depth of each of them. -/
inductive Laid (table : Table) : Nat → List Text → List Nat → Prop
  | nil {d : Nat} : Laid table d [] []
  | balanced {d : Nat} {line : Text} {lines : List Text} {depths : List Nat} :
      BalancedLine table line → Laid table d lines depths →
      Laid table d (line :: lines) (d :: depths)
  | arm {d : Nat} {line : Text} {lines : List Text} {depths : List Nat} :
      ArmLine table line → Laid table d lines depths →
      Laid table d (line :: lines) ((d - 1) :: depths)
  | block {d : Nat} {opener : Kind} {first last : Text} {body lines : List Text}
      {inner depths : List Nat} :
      OpenerLine table opener first → Laid table (d + opener.rise) body inner →
      ClosingLine table opener last → Laid table d lines depths →
      Laid table d (first :: (body ++ last :: lines)) (d :: (inner ++ d :: depths))
  | sharing {d : Nat} {first mid last : Text} {body tail lines : List Text}
      {inner shared depths : List Nat} :
      OpenerLine table .openDouble first → Laid table (d + 2) body inner →
      SharingLine table mid → Laid table (d + 1) tail shared →
      ClosingLine table .openDouble last → Laid table d lines depths →
      Laid table d (first :: (body ++ mid :: (tail ++ last :: lines)))
        (d :: (inner ++ d :: (shared ++ d :: depths)))

variable {table : Table} {frames : List Frame} {n : Nesting}

theorem apply_opener {opener : Kind} (h : 0 < opener.rise) :
    n.apply frames opener = ⟨n.running + opener.rise, n.running :: n.bases⟩ := by
  cases opener with
  | openDouble => rfl
  | openSingle => rfl
  | _ => exact absurd h (Nat.lt_irrefl 0)

theorem Closes.apply {opener closer : Kind} (h : Closes opener closer) :
    (n.apply frames opener).apply frames closer = n := by
  cases h with
  | terminator h =>
    rw [apply_opener h]
    rfl
  | paren =>
    change (⟨n.running + 1 - 1, n.bases⟩ : Nesting) = n
    rw [Int.add_sub_cancel]

theorem Nested.foldl {ks : List Kind} (h : Nested ks) (n : Nesting) :
    ks.foldl (Nesting.apply frames) n = n := by
  induction h generalizing n with
  | nil => rfl
  | arm _ ih => exact ih n
  | block hc _ _ ihInner ihRest =>
    rw [List.foldl_cons, List.foldl_append, List.foldl_cons, ihInner, hc.apply, ihRest]

theorem depth_of_offset (kind : Option Kind) (depth level : Int) :
    (⟨kind, depth - level, level⟩ : Frame).depth = depth.toNat := by
  simp only [Frame.depth]
  congr 1
  omega

theorem frameOf_depth_rule (frames : List Frame) (kind : Kind) (rest : List Token) :
    (frameOf frames (.rule kind :: rest)).depth =
      ((Nesting.apply frames ⟨inheritedLevel frames, []⟩ kind).lineDepth
        (inheritedLevel frames) kind).toNat :=
  depth_of_offset _ _ _

theorem frameOf_depth {ts : List Token} (h : StartsInPlace ts) :
    (frameOf frames ts).depth = (inheritedLevel frames).toNat := by
  cases ts with
  | nil => exact depth_of_offset _ _ _
  | cons t rest =>
    cases t with
    | other => exact depth_of_offset _ _ _
    | rule kind =>
      rw [frameOf_depth_rule]
      cases kind with
      | openDouble => rfl
      | openSingle => rfl
      | _ => exact absurd h (Nat.lt_irrefl 0)

structure Adds (table : Table) (frames : List Frame) (line : Text) (depth level : Nat) : Prop where
  depth : (frameFor table frames line).depth = depth
  level : (frameFor table frames line).level = level

section

variable {d : Nat} {line : Text} (hd : inheritedLevel frames = d)
include hd

theorem BalancedLine.adds (h : BalancedLine table line) : Adds table frames line d d := by
  obtain ⟨hstart, hnested⟩ := h
  refine ⟨?_, ?_⟩
  · rw [frameFor, frameOf_depth hstart, hd, Int.toNat_natCast]
  · rw [frameFor, frameOf_level, hnested.foldl, hd]

theorem ArmLine.adds (h : ArmLine table line) : Adds table frames line (d - 1) d := by
  obtain ⟨rest, htokens, hnested⟩ := h
  refine ⟨?_, ?_⟩
  · rw [frameFor, htokens, frameOf_depth_rule, hd]
    simp only [Nesting.lineDepth]
    omega
  · rw [frameFor, htokens, frameOf_level, hd]
    exact congrArg Nesting.running (hnested.foldl _)

theorem OpenerLine.adds {opener : Kind} (h : OpenerLine table opener line) :
    Adds table frames line d (d + opener.rise) := by
  obtain ⟨hstart, hrise, before, after, hkinds, hbefore, hafter⟩ := h
  refine ⟨?_, ?_⟩
  · rw [frameFor, frameOf_depth hstart, hd, Int.toNat_natCast]
  · rw [frameFor, frameOf_level, hkinds, List.foldl_append, hbefore.foldl, List.foldl_cons,
      apply_opener hrise, hafter.foldl, hd]
    rfl

end

section

variable {d : Nat} {line : Text}

theorem ClosingLine.adds {opener : Kind} (h : ClosingLine table opener line) {rise : Nat}
    (hrise : opener = .openSingle → rise = 1)
    (hd : inheritedLevel frames = (d + rise : Nat))
    (hback : enclosingLevel frames (d + rise : Nat) = d) : Adds table frames line d d := by
  obtain ⟨closer, rest, htokens, hcloses, hnested⟩ := h
  have hclosed : (Nesting.apply frames ⟨inheritedLevel frames, []⟩ closer).running = d := by
    rw [hd]
    cases hcloses with
    | terminator _ => exact hback
    | paren =>
      have hone := hrise rfl
      simp only [Nesting.apply]
      omega
  refine ⟨?_, ?_⟩
  · rw [frameFor, htokens, frameOf_depth_rule]
    cases hcloses with
    | terminator _ => exact congrArg Int.toNat hclosed
    | paren => exact congrArg Int.toNat hclosed
  · rw [frameFor, htokens, frameOf_level]
    change (List.foldl _ (Nesting.apply frames _ closer) (kindsOf rest)).running = _
    rw [hnested.foldl, hclosed]

theorem SharingLine.adds (h : SharingLine table line)
    (hd : inheritedLevel frames = (d + 2 : Nat)) : Adds table frames line d (d + 1) := by
  obtain ⟨rest, htokens, hnested⟩ := h
  refine ⟨?_, ?_⟩
  · rw [frameFor, htokens, frameOf_depth_rule, hd]
    simp only [Nesting.lineDepth]
    omega
  · rw [frameFor, htokens, frameOf_level, hd]
    change (List.foldl _ (Nesting.apply frames _ .sharing) (kindsOf rest)).running = _
    rw [hnested.foldl]
    simp only [Nesting.apply]
    omega

end

/-- What lines add to frames: frames of these depths, none of them with a level below `low`, of
which the last one has the level `last`. -/
structure Grows (table : Table) (frames : List Frame) (lines : List Text) (low last : Nat)
    (depths : List Nat) (inner : List Frame) : Prop where
  scan : lines.foldl (advance table) frames = frames ++ inner
  depths : inner.map Frame.depth = depths
  last : inheritedLevel (frames ++ inner) = last
  deep : ∀ f ∈ inner, (low : Int) ≤ f.level

theorem Adds.grows {depth level low : Nat} {line : Text} (h : Adds table frames line depth level)
    (hle : low ≤ level) :
    Grows table frames [line] low level [depth] [frameFor table frames line] := by
  refine ⟨rfl, congrArg (· :: []) h.depth, ?_, ?_⟩
  · rw [inheritedLevel_append_singleton, h.level]
  · intro f hf
    rw [List.mem_singleton.mp hf, h.level]
    exact Int.ofNat_le.mpr hle

namespace Grows

variable {low mid last : Nat} {first rest : List Text} {ds es : List Nat}
  {inner outer : List Frame}

theorem lower {lower : Nat} (h : Grows table frames first low last ds inner) (hle : lower ≤ low) :
    Grows table frames first lower last ds inner := by
  refine ⟨h.scan, h.depths, h.last, fun f hf => ?_⟩
  have hdeep := h.deep f hf
  omega

theorem append (h : Grows table frames first low mid ds inner)
    (h' : Grows table (frames ++ inner) rest low last es outer) :
    Grows table frames (first ++ rest) low last (ds ++ es) (inner ++ outer) := by
  refine ⟨?_, ?_, ?_, ?_⟩
  · rw [List.foldl_append, h.scan, h'.scan, List.append_assoc]
  · rw [List.map_append, h.depths, h'.depths]
  · rw [← List.append_assoc]
    exact h'.last
  · intro f hf
    rcases List.mem_append.mp hf with hf | hf
    · exact h.deep f hf
    · exact h'.deep f hf

theorem enclosingLevel {d : Nat} (h : Grows table frames first low last ds inner)
    (hd : inheritedLevel frames = d) (hlt : d < low) :
    enclosingLevel (frames ++ inner) low = d := by
  rw [enclosingLevel_append h.deep, enclosingLevel_of_inherited, hd]
  rw [hd]
  exact Int.ofNat_lt.mpr hlt

end Grows

/-- Lines of a program come back to their depth and stay above it in between. -/
theorem Laid.grows {d : Nat} {lines : List Text} {depths : List Nat}
    (h : Laid table d lines depths) (hd : inheritedLevel frames = d) :
    ∃ inner, Grows table frames lines d d depths inner := by
  induction h generalizing frames with
  | nil => exact ⟨[], (List.append_nil _).symm, rfl, by rwa [List.append_nil], by simp⟩
  | balanced hline _ ih =>
    have hfirst := (hline.adds hd).grows (Nat.le_refl _)
    obtain ⟨inner, hrest⟩ := ih hfirst.last
    exact ⟨_, hfirst.append hrest⟩
  | arm hline _ ih =>
    have hfirst := (hline.adds hd).grows (Nat.le_refl _)
    obtain ⟨inner, hrest⟩ := ih hfirst.last
    exact ⟨_, hfirst.append hrest⟩
  | @block d opener _ _ _ _ _ _ hopens _ hcloses _ ihBody ihRest =>
    have hfirst := (hopens.adds hd).grows (Nat.le_refl _)
    obtain ⟨inner, hbody⟩ := ihBody hfirst.last
    have hblock := hfirst.append hbody
    -- All frames of the block are deeper than `d`, so the closing line looks back past them.
    have hback := hblock.enclosingLevel hd (Nat.lt_add_of_pos_right hopens.2.1)
    have hsingle (h : opener = .openSingle) : opener.rise = 1 := congrArg Kind.rise h
    have hlast := (hcloses.adds hsingle hblock.last hback).grows (Nat.le_refl d)
    obtain ⟨outer, hrest⟩ := ihRest hlast.last
    have hlow := hblock.lower (Nat.le_add_right d opener.rise)
    exact ⟨_, hlow.append (hlast.append hrest)⟩
  | @sharing d _ _ _ _ _ _ _ _ _ hopens _ hshares _ hcloses _ ihBody ihTail ihRest =>
    have hfirst := (hopens.adds hd).grows (Nat.le_refl _)
    obtain ⟨inner, hbody⟩ := ihBody hfirst.last
    -- The shared part is one unit deep, so only this much of the depth of the first part counts.
    have hblock := (hfirst.append hbody).lower (Nat.le_succ (d + 1))
    have hmid := (hshares.adds hblock.last).grows (Nat.le_refl (d + 1))
    obtain ⟨shared, htail⟩ := ihTail hmid.last
    have hback := (hblock.append (hmid.append htail)).enclosingLevel hd (Nat.lt_succ_self d)
    rw [← List.append_assoc, ← List.append_assoc] at hback
    have hlast := (hcloses.adds (by simp) htail.last hback).grows (Nat.le_refl d)
    obtain ⟨outer, hrest⟩ := ihRest hlast.last
    have hlow := hblock.lower (Nat.le_succ d)
    have hlowMid := hmid.lower (Nat.le_succ d)
    have hlowTail := htail.lower (Nat.le_succ d)
    exact ⟨_, hlow.append (hlowMid.append (hlowTail.append (hlast.append hrest)))⟩

theorem map_indentFor (frames : List Frame) :
    (List.range frames.length).map (indentFor frames) = frames.map Frame.depth := by
  apply List.ext_getElem
  · simp
  · intro i hi hi'
    simp only [List.length_map] at hi'
    simp [indentFor, hi']

/-- Every line of a program in blocks gets its depth, and after the program nothing is open. -/
theorem laid_depths {lines : List Text} {depths : List Nat}
    (h : Laid Table.standard 0 lines depths) :
    (List.range lines.length).map (indentFor (scan Table.standard lines)) = depths ∧
      inheritedLevel (scan Table.standard lines) = 0 ∧
      isSubmitReady (scan Table.standard lines) = true := by
  have hstart : inheritedLevel [] = 0 := rfl
  obtain ⟨inner, hgrows⟩ := h.grows hstart
  have hscan : scan Table.standard lines = inner := hgrows.scan
  have hlast : inheritedLevel inner = 0 := hgrows.last
  rw [hscan]
  refine ⟨?_, hlast, (isSubmitReady_iff hgrows.deep).mpr hlast⟩
  have hlength : lines.length = inner.length := by
    rw [← hscan, scan_length]
  rw [hlength, map_indentFor, hgrows.depths]

/-- A `data` block with an arm, a line of its own and a method in its shared part. -/
theorem data_block_depths :
    Laid Table.standard 0 ["data D:".toList, "| red".toList, "f(1)".toList, "sharing:".toList,
      "method m:".toList, "if x: 1 else: 2 end".toList, "end".toList, "end".toList]
      [0, 1, 2, 0, 1, 2, 1, 0] ∧
    (List.range 8).map (indentFor (scan Table.standard ["data D:".toList, "| red".toList,
      "f(1)".toList, "sharing:".toList, "method m:".toList, "if x: 1 else: 2 end".toList,
      "end".toList, "end".toList])) = [0, 1, 2, 0, 1, 2, 1, 0] := by
  have hdata : OpenerLine Table.standard .openDouble "data D:".toList := by
    have ht : tokens Table.standard "data D:".toList = [.rule .openDouble, .other, .other] := by
      decide +kernel
    rw [OpenerLine, ht]
    exact ⟨Nat.two_pos, Nat.two_pos, [], [], rfl, .nil, .nil⟩
  have harm : ArmLine Table.standard "| red".toList :=
    ⟨[.other], by decide +kernel, .nil⟩
  have hcall : BalancedLine Table.standard "f(1)".toList := by
    have ht : tokens Table.standard "f(1)".toList =
        [.other, .rule .openSingle, .other, .rule .closeParen] := by
      decide +kernel
    rw [BalancedLine, ht]
    exact ⟨trivial, .block .paren .nil .nil⟩
  have hsharing : SharingLine Table.standard "sharing:".toList :=
    ⟨[.other], by decide +kernel, .nil⟩
  have hmethod : OpenerLine Table.standard .openSingle "method m:".toList := by
    have ht : tokens Table.standard "method m:".toList = [.rule .openSingle, .other, .other] := by
      decide +kernel
    rw [OpenerLine, ht]
    exact ⟨Nat.one_pos, Nat.one_pos, [], [], rfl, .nil, .nil⟩
  have hif : BalancedLine Table.standard "if x: 1 else: 2 end".toList := by
    have ht : tokens Table.standard "if x: 1 else: 2 end".toList = [.rule .openSingle, .other,
        .other, .other, .rule .softUnindent, .other, .other, .rule .terminator] := by
      decide +kernel
    have hclose : Closes .openSingle .terminator := .terminator Nat.one_pos
    rw [BalancedLine, ht]
    exact ⟨Nat.one_pos, .block hclose (.arm .nil) .nil⟩
  have hend (opener : Kind) (h : 0 < opener.rise) :
      ClosingLine Table.standard opener "end".toList :=
    ⟨.terminator, [], by decide +kernel, .terminator h, .nil⟩
  have hnil (d : Nat) : Laid Table.standard d [] [] := .nil
  have hlaid := Laid.sharing hdata (.arm harm (.balanced hcall (hnil 2))) hsharing
    (.block hmethod (.balanced hif (hnil 2)) (hend _ Nat.one_pos) (hnil 1)) (hend _ Nat.two_pos)
    (hnil 0)
  exact ⟨hlaid, (laid_depths hlaid).1⟩

end Promptline.Indent
