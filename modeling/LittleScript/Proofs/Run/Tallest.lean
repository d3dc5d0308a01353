import LittleScript.Proofs.Grammar.Soundness
import LittleScript.Proofs.Layout.Writable
import LittleScript.Proofs.Rule.Height

/-!
How high the tree of a text can be. The limit bounds the levels that are open at once, but not the height:
levels that are closed behind an operand are opened again by the links that follow it.
-/

namespace LittleScript

open Grammar

def calls : Nat → List Kind
  | 0 => []
  | count + 1 => calls count ++ [.leftParen, .rightParen]

/-- The words of a function that is called in parentheses again and again, each time as often as the levels
of what is called allow. -/
def tower : Nat → List Kind
  | 0 => [.fnWord, .leftParen, .rightParen, .leftBrace, .rightBrace] ++ calls 1
  | count + 1 => .leftParen :: (tower count ++ .rightParen :: calls (count + 2))

/-- Each call is a node above what is called, and holds a level. -/
private theorem derives_calls {callee : Expression} {front tokens : List Token} {peak count : Nat}
    (h : Derives (.expression .call callee 0) front peak) (spelled : tokens.map Token.kind = calls count) :
    ∃ tree, Derives (.expression .call tree count) (front ++ tokens) (max peak count) ∧
      tree.height .all = callee.height .all + count := by
  induction count generalizing tokens with
  | zero =>
    obtain rfl := List.map_eq_nil_iff.1 spelled
    rw [List.append_nil, Nat.max_zero]
    exact ⟨callee, h, rfl⟩
  | succ count ih =>
    obtain ⟨first, rest, rfl, before, behind⟩ := List.map_eq_append_iff.1 spelled
    obtain ⟨opening, rest, rfl, opens, behind⟩ := List.map_eq_cons_iff.1 behind
    obtain ⟨closing, rest, rfl, closes, behind⟩ := List.map_eq_cons_iff.1 behind
    obtain rfl := List.map_eq_nil_iff.1 behind
    obtain ⟨tree, derives, height⟩ := ih before
    refine ⟨.call opening tree [], ?_, ?_⟩
    · have peaks : max (max peak count) (count + 1 + 0) = max peak (count + 1) := by omega
      rw [← List.append_assoc, ← peaks]
      exact .call opens derives .noArguments closes
    · rw [Expression.height, height, Expression.heightAll]
      simp only [Count.all]
      omega

/-- Calls of an operand make an expression of their own. -/
private theorem derives_called {callee : Expression} {front tokens : List Token} {levels : Nat}
    (h : Derives (.expression .primary callee 0) front levels)
    (spelled : tokens.map Token.kind = calls levels) :
    ∃ tree, Derives (.whole tree) (front ++ tokens) (levels + 1) ∧
      tree.height .all = callee.height .all + levels := by
  obtain ⟨tree, derives, height⟩ := derives_calls (.lift h) spelled
  rw [Nat.max_self] at derives
  exact ⟨tree, .whole (derives.lower (by decide)), height⟩

/-- A tower is as high as any tree that is read with its levels. -/
private theorem derives_tower {count : Nat} {tokens : List Token} (spelled : tokens.map Token.kind = tower count) :
    ∃ tree, Derives (.whole tree) tokens (count + 2) ∧
      tree.height .all = Count.all.greatest (count + 2) := by
  induction count generalizing tokens with
  | zero =>
    obtain ⟨front, links, rfl, before, linked⟩ := List.map_eq_append_iff.1 spelled
    obtain ⟨word, rest, rfl, defines, before⟩ := List.map_eq_cons_iff.1 before
    obtain ⟨opening, rest, rfl, opens, before⟩ := List.map_eq_cons_iff.1 before
    obtain ⟨closing, rest, rfl, closes, before⟩ := List.map_eq_cons_iff.1 before
    obtain ⟨first, rest, rfl, begins, before⟩ := List.map_eq_cons_iff.1 before
    obtain ⟨last, rest, rfl, ends, before⟩ := List.map_eq_cons_iff.1 before
    obtain rfl := List.map_eq_nil_iff.1 before
    have function : Derives (.function word [] (.braced first []))
        [word, opening, closing, first, last] 1 :=
      .function defines opens .none closes (.block begins .noStatements ends)
    obtain ⟨tree, derives, height⟩ := derives_called (.literal function) linked
    exact ⟨tree, derives, height⟩
  | succ count ih =>
    obtain ⟨opening, rest, rfl, opens, grouped⟩ := List.map_eq_cons_iff.1 spelled
    obtain ⟨inside, rest, rfl, before, behind⟩ := List.map_eq_append_iff.1 grouped
    obtain ⟨closing, links, rfl, closes, linked⟩ := List.map_eq_cons_iff.1 behind
    obtain ⟨callee, derives, height⟩ := ih before
    obtain ⟨tree, derives, grown⟩ := derives_called (.group opens derives closes) linked
    refine ⟨tree, ?_, ?_⟩
    · rw [List.cons_append, ← List.append_cons] at derives
      exact derives
    · rw [grown, height, Count.greatest.eq_2 _ (count + 2)]
      simp only [Count.all]
      omega

namespace Layout

/-- The words of signs and keywords have their kinds. -/
private theorem kinds_map_sign (kinds : List Kind) : (words (kinds.map .sign)).map Prod.fst = kinds := by
  induction kinds with
  | nil => rfl
  | cons kind kinds ih => exact congrArg (kind :: ·) ih

private theorem apart_alone {kinds : List Kind} {following : List Char} (alone : ∀ kind ∈ kinds, Alone kind) :
    Apart (kinds.map .sign) following := by
  induction kinds with
  | nil => trivial
  | cons kind kinds ih =>
    rw [List.map_cons, apart_sign (alone kind List.mem_cons_self)]
    exact ih fun other mem => alone other (List.mem_cons_of_mem kind mem)

private theorem alone_calls (count : Nat) : ∀ kind ∈ calls count, Alone kind := by
  induction count with
  | zero => exact fun _ none => absurd none List.not_mem_nil
  | succ count ih =>
    intro kind mem
    rcases List.mem_append.1 mem with mem | mem
    · exact ih kind mem
    · have links : ∀ kind ∈ [Kind.leftParen, .rightParen], Alone kind := by decide
      exact links kind mem

/-- In a tower, only the keyword could run into what is written behind it, and that is a sign. -/
private theorem apart_tower (count : Nat) (following : List Char) : Apart ((tower count).map .sign) following := by
  induction count generalizing following with
  | zero =>
    refine ⟨Lexical.keyword (by decide), ?_, apart_alone (by decide)⟩
    exact free_of_bounded (by decide) (bounded_sign (by decide))
  | succ count ih =>
    rw [tower, List.map_cons, apart_sign (by decide), List.map_append, apart_append]
    refine ⟨ih _, apart_alone fun kind mem => ?_⟩
    rcases List.mem_cons.1 mem with rfl | mem
    · decide
    · exact alone_calls _ kind mem

def assigned (count : Nat) : List Piece :=
  .word .identifier "x" :: .gap :: .sign .assign :: .gap :: (tower count ++ [Kind.semicolon]).map .sign

private theorem apart_assigned (count : Nat) : Apart (assigned count) [] := by
  have letter : ∀ c ∈ "x".toList, isLetter c = true := List.all_eq_true.1 (by decide)
  have named : Lexical .identifier "x" := .identifier (by decide) letter (by decide)
  have sign : Lexical .assign Kind.assign.symbol := Lexical.sign (by decide)
  refine ⟨named, free_of_bounded (by decide) bounded_gap, sign, ?_, ?_⟩
  · intro c mem
    rw [chars_gap] at mem
    cases mem
    decide
  · rw [apart_gap, List.map_append, apart_append]
    exact ⟨apart_tower count _, apart_alone (by decide)⟩

end Layout

private theorem kinds_assigned (count : Nat) :
    (TokenStream.ofText (Layout.text (Layout.assigned count))).tokens.map Token.kind =
      .identifier :: .assign :: (tower count ++ [.semicolon]) := by
  have spelled := TokenStream.spelling_ofText (Layout.apart_assigned count)
  have kinds := congrArg (List.map Prod.fst) spelled
  rw [List.map_map] at kinds
  refine kinds.trans ?_
  exact congrArg (fun rest => Kind.identifier :: Kind.assign :: rest) (Layout.kinds_map_sign _)

/-- The assignment of a tower is read with two levels more than it has floors, and it is as high as these
levels allow. -/
private theorem read_tower {limit count : Nat} (levels : count + 2 ≤ limit) :
    (Parsed.ofStream limit (.ofText (Layout.text (Layout.assigned count)))).diagnostics = [] ∧
      (Parsed.ofStream limit (.ofText (Layout.text (Layout.assigned count)))).program.height .all =
        Count.all.greatest (count + 2) := by
  have kinds := kinds_assigned count
  obtain ⟨name, rest, tokens, named, behind⟩ := List.map_eq_cons_iff.1 kinds
  obtain ⟨sign, rest, rfl, assigns, behind⟩ := List.map_eq_cons_iff.1 behind
  obtain ⟨value, rest, rfl, spelled, behind⟩ := List.map_eq_append_iff.1 behind
  obtain ⟨stop, rest, rfl, stops, behind⟩ := List.map_eq_cons_iff.1 behind
  obtain rfl := List.map_eq_nil_iff.1 behind
  obtain ⟨tree, derives, height⟩ := derives_tower spelled
  have whole : Derives (.statements false [.assignment name (Name.ofToken name) tree])
      (name :: sign :: (value ++ [stop]) ++ []) (max (count + 2) 0) :=
    .statement (.assignment named assigns derives stops) .noStatements fun ended => by cases ended
  rw [List.append_nil, Nat.max_zero, ← tokens] at whole
  obtain ⟨program, silent⟩ := (ofStream_of_derives whole).1 levels
  refine ⟨silent, ?_⟩
  rw [program, ← height]
  exact Nat.max_zero _

/-- A text without errors that needs fewer levels than there are is no higher than these levels allow. -/
private theorem Parsed.height_le_of_silent (c : Count) {limit levels : Nat} {stream : TokenStream}
    (silent : (ofStream levels stream).diagnostics = []) (fewer : levels ≤ limit) :
    (ofStream limit stream).program.height c ≤ c.greatest levels := by
  obtain ⟨peak, room, derives⟩ := sentence_of_silent silent
  rw [((ofStream_of_derives derives).1 (Nat.le_trans room fewer)).1]
  exact height_ofStream_le c levels stream

/-- On a way through the tree of a text, the limit bounds the steps that do not go to a first operand or to
what is called. With those that do, there are at most 8129. The limit bounds all of them if the text is read
without errors with 16 levels. -/
theorem height_parse (text : String) :
    (parse text).program.height .onlyInward ≤ levelLimit ∧
      (parse text).program.height .all ≤ levelLimit + (parse text).program.height .onlyLeftward ∧
      (parse text).program.height .all ≤ 8129 ∧
      ((Parsed.ofStream 16 (.ofText text)).diagnostics = [] →
        (parse text).program.height .all ≤ levelLimit) := by
  have bound (c : Count) : (parse text).program.height c ≤ c.greatest levelLimit :=
    Parsed.height_ofStream_le c levelLimit (.ofText text)
  have inward : (parse text).program.height .onlyInward ≤ levelLimit :=
    Nat.le_trans (bound .onlyInward) (Nat.le_of_eq (Count.greatest_onlyInward levelLimit))
  refine ⟨inward, ?_, ?_, fun silent => ?_⟩
  · exact Nat.le_trans (Program.height_all_le _) (Nat.add_le_add_right inward _)
  · have most : Count.all.greatest levelLimit = 8129 := Count.greatest_all 127
    exact most ▸ bound .all
  · have most : Count.all.greatest 16 = 121 := Count.greatest_all 15
    have fewer := Parsed.height_le_of_silent .all silent (by decide : 16 ≤ levelLimit)
    exact Nat.le_trans (most ▸ fewer) (by decide)

/-- The tower that needs 16 levels is no higher than the limit. -/
theorem height_parse_tower :
    (Parsed.ofStream 16 (.ofText (Layout.text (Layout.assigned 14)))).diagnostics = [] ∧
      (parse (Layout.text (Layout.assigned 14))).program.height .all ≤ levelLimit := by
  have silent := (@read_tower 16 14 (Nat.le_refl 16)).1
  exact ⟨silent, (height_parse _).2.2.2 silent⟩

/-- The next tower is higher than the limit, though no more than 17 levels are ever open. -/
theorem limit_lt_height :
    (parse (Layout.text (Layout.assigned 15))).diagnostics = [] ∧
      levelLimit < (parse (Layout.text (Layout.assigned 15))).program.height .all := by
  obtain ⟨silent, height⟩ := @read_tower levelLimit 15 (by decide)
  refine ⟨silent, ?_⟩
  have high : Count.all.greatest (15 + 2) = 137 := Count.greatest_all 16
  rw [parse, height, high]
  decide

/-- Some text has a tree with 8129 steps on a way, without an error. -/
theorem exists_height_parse :
    ∃ text, (parse text).diagnostics = [] ∧ (parse text).program.height .all = 8129 := by
  have most : Count.all.greatest levelLimit = 8129 := Count.greatest_all 127
  refine ⟨Layout.text (Layout.assigned 126), ?_⟩
  rw [← most]
  exact read_tower (Nat.le_refl levelLimit)

end LittleScript
