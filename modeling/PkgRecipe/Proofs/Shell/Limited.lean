import PkgRecipe.Proofs.Shell.Resumed

namespace PkgRecipe.Shell

/-! Words of which the last holds the rest of the text. It is the words in that rest, joined by
spaces, and so is its value. -/

/-- A separator stands outside of all quotes and brackets, and what follows it is read anew. -/
theorem Quoting.outside_of_separator {q : Quoting} {c : Char}
    (separates : (q.step c).2 = .separator) :
    (q.mode = .normal ∨ q.mode = .dollar) ∧ q.next c = .initial := by
  obtain rfl := eq_space_of_separator separates
  obtain ⟨mode, depth⟩ := q
  by_cases closed : depth = 0
  · subst depth
    cases mode <;> first | contradiction | simp [next, step, stepPlain, initial]
  · cases mode <;> simp [step, stepPlain, closed] at separates

private theorem valueFrom_separator {q : Quoting} {raw : List Char}
    (separates : ((q.scan raw).step ' ').2 = .separator) :
    valueFrom q (raw ++ [' ']) = valueFrom q raw ++ [' '] := by
  obtain ⟨r, coherent, ends, whole, appended⟩ := exists_reading q raw
  rw [← ends] at separates
  obtain ⟨outside, anew⟩ := Quoting.outside_of_separator separates
  have noBody : r.body = none :=
    coherent.body_eq_none (by rcases outside with mode | mode <;> rw [mode] <;> rfl)
  have pushed := Reading.push_outside noBody (by rw [anew]; rfl)
  rw [appended, ← whole, List.foldl_cons, List.foldl_nil, pushed, separates]
  rcases outside with mode | mode
  · simp [Reading.finish, noBody, unquotedChar, mode]
  · simp [Reading.finish, noBody, unquotedChar, mode]

namespace Cut

variable {q : Quoting} {text : List Char} {ps : List Piece}

theorem valueFrom_eq (cut : Cut q text ps) :
    valueFrom q text = List.intercalate [' '] (ps.map Piece.value) := by
  induction cut with
  | last q raw => simp [Piece.value]
  | @space q raw rest later separates cut ih =>
      have anew : q.scan (raw ++ [' ']) = (q.scan raw).next ' ' := by
        rw [Quoting.scan_append]
        rfl
      have start : (q.scan raw).next ' ' = .initial := (Quoting.outside_of_separator separates).2
      have split : raw ++ ' ' :: rest = raw ++ [' '] ++ rest := by simp
      obtain ⟨p, more, rfl⟩ := List.exists_cons_of_ne_nil cut.ne_nil
      rw [split, valueFrom_append rest (by rw [anew, start]; decide) (by rw [anew, start]; rfl), anew,
        ih, valueFrom_separator separates, List.map_cons, List.map_cons, List.map_cons,
        List.intercalate_cons_cons]
      rfl

end Cut

private theorem pieces_limited (cuts : Nat) (q : Quoting) (text : List Char) :
    ∃ kept rest whole,
      pieces none q text = kept ++ rest ∧ pieces (some cuts) q text = kept ++ [whole] ∧
        Cut whole.quoting whole.raw rest ∧
          kept.length = min cuts ((pieces none q text).length - 1) := by
  induction text generalizing cuts q with
  | nil => exact ⟨[], [⟨q, []⟩], ⟨q, []⟩, rfl, rfl, .last q [], (Nat.min_zero _).symm⟩
  | cons c text ih =>
      cases cuts with
      | zero =>
          exact ⟨[], pieces none q (c :: text), ⟨q, c :: text⟩, rfl, pieces_some_zero _ _,
            cut_pieces none q (c :: text), (Nat.zero_min _).symm⟩
      | succ cuts =>
          rw [pieces_cons, pieces_cons]
          by_cases separates : (q.step c).2 = .separator
          · obtain ⟨kept, rest, whole, all, few, cut, length⟩ := ih cuts (q.next c)
            simp only [separates, cutsBehind?]
            refine ⟨⟨q, []⟩ :: kept, rest, whole, by rw [all]; rfl, by rw [few]; rfl, cut, ?_⟩
            have nonempty := (cut_pieces none (q.next c) text).ne_nil
            have positive := List.length_pos_iff.2 nonempty
            rw [List.length_cons, List.length_cons, length]
            omega
          · obtain ⟨kept, rest, whole, all, few, cut, length⟩ := ih (cuts + 1) (q.next c)
            simp only [cutsBehind?_of_ne separates]
            rw [length_consPiece q c (cut_pieces none _ _).ne_nil, ← length, all, few]
            cases kept with
            | nil =>
                obtain ⟨raw, later, first⟩ := exists_pieces_eq_cons (some (cuts + 1)) (q.next c) text
                rw [first] at few
                obtain ⟨rfl, -⟩ := List.cons.inj few
                exact ⟨[], consPiece q c rest, ⟨q, c :: raw⟩, rfl, rfl, cut.cons, rfl⟩
            | cons p kept =>
                exact ⟨⟨q, c :: p.raw⟩ :: kept, rest, whole, rfl, rfl, cut, rfl⟩

private theorem unquote_eq_intercalate (text : List Char) :
    unquote text = List.intercalate [' '] ((tokenize text).map Token.value) := by
  by_cases empty : text = []
  · rw [empty]
    rfl
  · rw [unquote_eq, tokenize, tokensFrom_unlimited empty, map_value_tokensOf,
      (cut_pieces none .initial text).valueFrom_eq]

private theorem exists_tokensFrom_limited {limit : Int} (positive : 0 < limit) (q : Quoting)
    {text : List Char} (present : text ≠ []) :
    ∃ front rest last,
      tokensFrom q (-1) text = front ++ rest ∧ tokensFrom q limit text = front ++ [last] ∧
        rest.head?.map Token.start = .some last.start ∧ last.stop = text.length ∧
        last.index = front.length ∧
        last.raw = List.intercalate [' '] (rest.map Token.raw) ∧
        last.value = List.intercalate [' '] (rest.map Token.value) ∧
        (front.length + 1 : Int) = min limit (tokensFrom q (-1) text).length := by
  obtain ⟨kept, rest, whole, all, few, cut, length⟩ := pieces_limited (limit.toNat - 1) q text
  have limited : tokensFrom q limit text = tokensOf 0 0 (pieces (.some (limit.toNat - 1)) q text) := by
    rw [tokensFrom, if_neg present, cutsFor, if_pos positive]
  have nonempty := List.length_pos_iff.2 (cut_pieces none q text).ne_nil
  have stop := (cut_pieces (.some (limit.toNat - 1)) q text).stop_getLast? 0 0
  rw [few, tokensOf_append] at stop
  rw [limited, few, tokensFrom_unlimited present, length_tokensOf, all, tokensOf_append,
    tokensOf_append, ← all]
  refine ⟨_, _, _, rfl, rfl, ?_, ?_, ?_, ?_, ?_, ?_⟩
  · obtain ⟨p, later, rfl⟩ := List.exists_cons_of_ne_nil cut.ne_nil
    rfl
  · exact (stop _ List.getLast?_concat).trans (Nat.zero_add _)
  · rw [length_tokensOf]
    exact Nat.zero_add _
  · rw [map_raw_tokensOf, cut.intercalate_raw]
  · rw [map_value_tokensOf, ← cut.valueFrom_eq]
    rfl
  · rw [length_tokensOf, length]
    omega

/-- With a limit the tokens of a text agree with all its tokens, but the last holds the rest: its raw
text and its value are those of the tokens in it, joined by spaces. A word that is unquoted is a text
with a limit of one. -/
theorem tokensFrom_limited {limit : Int} (positive : 0 < limit) (q : Quoting) (text : List Char) :
    let few := tokensFrom q limit text
    let all := tokensFrom q (-1) text
    (few.length : Int) = min limit all.length ∧
      few.dropLast = all.take (few.length - 1) ∧
      (∀ t ∈ few.getLast?,
        t.index = few.length - 1 ∧ (all[t.index]?).map Token.start = some t.start ∧
          t.stop = text.length ∧
          t.raw = List.intercalate [' '] ((all.drop t.index).map Token.raw) ∧
          t.value = List.intercalate [' '] ((all.drop t.index).map Token.value)) ∧
      quotingAfterWords q limit text = quotingAfterWords q (-1) text ∧
      unquote text = List.intercalate [' '] ((tokenize text).map Token.value) := by
  intro few all
  have ends : quotingAfterWords q limit text = quotingAfterWords q (-1) text := by
    rw [quotingAfterWords_eq, quotingAfterWords_eq]
  by_cases empty : text = []
  · have nothing : few = [] := tokensFrom_eq_nil_iff.2 empty
    have nothing' : all = [] := tokensFrom_eq_nil_iff.2 empty
    rw [nothing, nothing', List.length_nil]
    exact ⟨by omega, rfl, nofun, ends, unquote_eq_intercalate text⟩
  · obtain ⟨front, rest, last, whole, limited, start, stop, index, raw, value, length⟩ :=
      exists_tokensFrom_limited positive q empty
    change all = front ++ rest at whole
    change few = front ++ [last] at limited
    have count : few.length - 1 = front.length := by
      rw [limited, List.length_append, List.length_singleton, Nat.add_sub_cancel]
    refine ⟨?_, ?_, ?_, ends, unquote_eq_intercalate text⟩
    · rw [← length, limited]
      simp
    · rw [count, whole, limited, List.dropLast_concat, List.take_left]
    · intro t final
      rw [limited, List.getLast?_concat] at final
      obtain rfl := Option.some.inj final
      rw [count, index, whole, List.drop_left, List.getElem?_append_right le_rfl, Nat.sub_self,
        ← List.head?_eq_getElem?]
      exact ⟨rfl, start, stop, raw, value⟩

theorem tokensFrom_limited_two :
    let q : Quoting := ⟨.singleQuote, 0⟩
    let text := "a b' \"c  d\"  $'\\x41'$ ( e )".toList
    let values (limit : Int) := (tokensFrom q limit text).map Token.value
    (0 : Int) < 2 ∧
      values (-1) = ["a b".toList, "c  d".toList, [], "A$".toList, "( e )".toList] ∧
      values 2 = ["a b".toList, "c  d  A$ ( e )".toList] := by
  intro q text values
  have positive : (0 : Int) < 2 := by decide
  have all : values (-1) = ["a b".toList, "c  d".toList, [], "A$".toList, "( e )".toList] := by
    decide +kernel
  obtain ⟨length, front, last, -, -⟩ := tokensFrom_limited positive q text
  have count : (tokensFrom q (-1) text).length = 5 := by
    rw [← List.length_map Token.value]
    exact congrArg List.length all
  have two : (tokensFrom q 2 text).length = 2 := by omega
  obtain ⟨first, t, few⟩ := List.length_eq_two.1 two
  obtain ⟨index, -, -, -, value⟩ := last t (by rw [few]; rfl)
  rw [two] at index
  rw [few] at front
  rw [index, List.map_drop] at value
  have here : [first].map Token.value = ((tokensFrom q (-1) text).map Token.value).take 1 := by
    rw [← List.map_take]
    exact congrArg (List.map Token.value) front
  refine ⟨positive, all, ?_⟩
  change (tokensFrom q 2 text).map Token.value = _
  change (tokensFrom q (-1) text).map Token.value = _ at all
  rw [all] at here value
  rw [few, List.map_cons, List.map_singleton, List.singleton_inj.1 here, value]
  decide

end PkgRecipe.Shell
