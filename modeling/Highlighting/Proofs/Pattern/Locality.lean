import Mathlib.Data.List.TakeDrop
import Mathlib.Data.List.TakeWhile
import Highlighting.Pattern.Parser

/-! # Reading in front of a closing parenthesis

What is read at the start of a text is the same when a closing parenthesis follows the text, since
nothing that is read goes beyond a parenthesis that closes. This needs blanks to count as any other
character: a comment would hide the parenthesis. -/
set_option autoImplicit false
namespace Highlighting.Pattern

/-- Whatever is read of a text is also read of it in front of a closing parenthesis. -/
def Local {result : Type} (read : List Char → Option (result × List Char)) : Prop :=
  ∀ ⦃text rest : List Char⦄ ⦃value : result⦄, read text = some (value, rest) →
    ∀ behind, read (text ++ ')' :: behind) = some (value, rest ++ ')' :: behind)

variable {flags : Flags} {test : Char → Bool}

theorem Flags.skip_terse (terse : flags.verbose = false) (text : List Char) : flags.skip text = text := by
  rw [skip, terse]
  rfl

/-! ## Runs of characters -/

theorem takeWhile_fence (outside : test ')' = false) (text behind : List Char) :
    (text ++ ')' :: behind).takeWhile test = text.takeWhile test := by
  induction text with
  | nil => simp [outside]
  | cons c rest ih => simp only [List.cons_append, List.takeWhile_cons, ih]

theorem dropWhile_fence (outside : test ')' = false) (text behind : List Char) :
    (text ++ ')' :: behind).dropWhile test = text.dropWhile test ++ ')' :: behind := by
  induction text with
  | nil => simp [outside]
  | cons c rest ih =>
      simp only [List.cons_append, List.dropWhile_cons, ih]
      split <;> rfl

theorem Flags.collect_fence (terse : flags.verbose = false) (test : Char → Bool)
    (outside : test ')' = false) (count : Nat) (text behind : List Char) :
    flags.collect test count (text ++ ')' :: behind) =
      ((flags.collect test count text).1, (flags.collect test count text).2 ++ ')' :: behind) := by
  induction count generalizing text with
  | zero => simp only [collect, skip_terse terse]
  | succ count ih =>
      cases text with
      | nil => simp [collect, skip_terse terse, outside]
      | cons c rest =>
          simp only [collect, skip_terse terse, List.cons_append, ih]
          split <;> rfl

theorem Flags.collect_terse (terse : flags.verbose = false) {count : Nat} {text : List Char}
    (enough : text.length ≤ count) :
    flags.collect test count text = (text.takeWhile test, text.dropWhile test) := by
  induction count generalizing text with
  | zero =>
      obtain rfl : text = [] := List.length_eq_zero_iff.mp (Nat.le_zero.mp enough)
      simp only [collect, skip_terse terse, List.takeWhile_nil, List.dropWhile_nil]
  | succ count ih =>
      cases text with
      | nil => simp only [collect, skip_terse terse, List.takeWhile_nil, List.dropWhile_nil]
      | cons c rest =>
          simp only [collect, skip_terse terse, ih (Nat.le_of_succ_le_succ enough), List.takeWhile_cons,
            List.dropWhile_cons]
          split <;> rfl

theorem Flags.collectAll_terse (terse : flags.verbose = false) (text : List Char) :
    flags.collectAll test text = (text.takeWhile test, text.dropWhile test) :=
  collect_terse terse (Nat.le_refl _)

theorem Flags.collectAll_fence (terse : flags.verbose = false) (test : Char → Bool)
    (outside : test ')' = false) (text behind : List Char) :
    flags.collectAll test (text ++ ')' :: behind) =
      ((flags.collectAll test text).1, (flags.collectAll test text).2 ++ ')' :: behind) := by
  simp only [collectAll_terse terse, takeWhile_fence outside, dropWhile_fence outside]

/-- A run that ends inside the text is the same whatever follows the text. -/
theorem takeWhile_ended {text rest : List Char} {c : Char} (ended : text.dropWhile test = c :: rest)
    (behind : List Char) : (text ++ behind).takeWhile test = text.takeWhile test ∧
      (text ++ behind).dropWhile test = c :: rest ++ behind := by
  induction text with
  | nil => cases ended
  | cons d others ih =>
      simp only [List.cons_append, List.takeWhile_cons, List.dropWhile_cons] at ended ⊢
      split
      · next passes =>
          rw [if_pos passes] at ended
          obtain ⟨taken, left⟩ := ih ended
          exact ⟨by rw [taken], left⟩
      · next fails =>
          rw [if_neg fails] at ended
          obtain ⟨rfl, rfl⟩ := List.cons.inj ended
          exact ⟨rfl, rfl⟩

/-- A text that does not start with a character does not start with it in front of a parenthesis. -/
theorem append_ne_cons {c : Char} (other : c ≠ ')') {text : List Char}
    (plain : ∀ inner, text ≠ c :: inner) (behind inner : List Char) :
    text ++ ')' :: behind ≠ c :: inner := by
  cases text with
  | nil =>
      intro same
      exact other (List.cons.inj same).1.symm
  | cons d rest =>
      intro same
      exact plain rest (by rw [(List.cons.inj same).1])

theorem append_ne_pair {c d : Char} (others : c ≠ ')' ∧ d ≠ ')') {text : List Char}
    (plain : ∀ inner, text ≠ c :: d :: inner) (behind inner : List Char) :
    text ++ ')' :: behind ≠ c :: d :: inner := by
  intro same
  rcases text with _ | ⟨e, rest⟩
  · exact others.1 (List.cons.inj same).1.symm
  · obtain ⟨rfl, behindSame⟩ := List.cons.inj same
    refine append_ne_cons others.2 (fun inner next => plain inner ?_) behind inner behindSame
    rw [next]

/-! ## Escapes -/

namespace Escape

theorem hex?_digits (terse : flags.verbose = false) (count : Nat) {text : List Char}
    (plain : ∀ inner, text ≠ '\x7b' :: inner) : hex? flags count text =
      (let (digits, rest) := flags.collect (fun c => (hexDigit? c).isSome) count text
       if digits.length < count then none
       else (ofHex? digits).map fun c => (if count = 2 then byte c else literal c, rest)) := by
  rw [hex?, Flags.skip_terse terse]
  split
  · next inner => exact absurd rfl (plain inner)
  · rfl

theorem hex?_local (terse : flags.verbose = false) (count : Nat) : Local (hex? flags count) := by
  intro text rest escape read behind
  have found {digits left : List Char} {make : Char → Escape}
      (read : (ofHex? digits).map (fun c => (make c, left)) = some (escape, rest)) :
      (ofHex? digits).map (fun c => (make c, left ++ ')' :: behind)) =
        some (escape, rest ++ ')' :: behind) := by
    obtain ⟨c, code, same⟩ := Option.map_eq_some_iff.mp read
    cases same
    rw [code]
    rfl
  by_cases plain : ∀ inner, text ≠ '\x7b' :: inner
  · have outside : (hexDigit? ')').isSome = false := rfl
    rw [hex?_digits terse count plain] at read
    rw [hex?_digits terse count (append_ne_cons (by decide) plain behind),
      Flags.collect_fence terse (fun c => (hexDigit? c).isSome) outside]
    dsimp only at read ⊢
    split at read
    · cases read
    · next enough =>
        rw [if_neg enough]
        exact found read
  · obtain ⟨inner, rfl⟩ := not_forall_not.mp plain
    simp only [hex?, Flags.skip_terse terse, Flags.collectAll_terse terse, List.cons_append] at read ⊢
    cases ended : inner.dropWhile (· != '\x7d') with
    | nil =>
        rw [ended] at read
        cases read
    | cons c others =>
        obtain ⟨taken, left⟩ := takeWhile_ended ended (')' :: behind)
        rw [ended] at read
        rw [taken, left]
        exact found read

theorem boundary?_plain {text : List Char} (plain : ∀ inner, text ≠ '\x7b' :: inner) :
    boundary? flags text = some (edge .boundary, text) := by
  rw [boundary?]
  exact plain

theorem boundary?_local (terse : flags.verbose = false) : Local (boundary? flags) := by
  intro text rest escape read behind
  by_cases plain : ∀ inner, text ≠ '\x7b' :: inner
  · rw [boundary?_plain plain] at read
    cases read
    exact boundary?_plain (append_ne_cons (by decide) plain behind)
  · obtain ⟨inner, rfl⟩ := not_forall_not.mp plain
    cases inner with
    | nil =>
        rw [boundary?, Flags.skip_terse terse] at read
        cases read
    | cons c others =>
        have same := Flags.collectAll_fence terse (fun c => c.isAlpha || c == '-') rfl
          (c :: others) behind
        simp only [boundary?, List.cons_append, Flags.skip_terse terse] at read same ⊢
        rw [same]
        split at read
        · next isName =>
            rw [if_pos isName]
            split at read
            · next name left collected =>
                rw [collected]
                split at read
                case h_5 => cases read
                all_goals
                  next named =>
                    cases read
                    simp only [List.cons_append, named]
            · cases read
        · next unnamed =>
            rw [if_neg unnamed]
            cases read
            rfl

theorem next?_local (terse : flags.verbose = false) : Local (next? flags) := by
  intro text rest escape read behind
  revert read
  fun_cases next? flags text <;> intro read
  · cases read
  · exact hex?_local terse 2 read behind
  · exact hex?_local terse 4 read behind
  · exact hex?_local terse 8 read behind
  · exact boundary?_local terse read behind
  case case24 => cases read
  case case23 stands _ _ _ _ =>
    cases read
    rw [List.cons_append, next?, if_pos stands] <;> assumption
  all_goals
    cases read
    rfl

end Escape

/-! ## Sets in brackets -/

namespace Bracket

theorem start_fence (terse : flags.verbose = false) (text behind : List Char) :
    start flags (text ++ ')' :: behind) =
      ((start flags text).1, (start flags text).2 ++ ')' :: behind) := by
  have dashes (inner : List Char) := Flags.collectAll_fence terse (· == '-') rfl inner behind
  simp only [start, Flags.skip_terse terse]
  by_cases plain : ∀ inner, text ≠ '^' :: inner
  · have plainToo := append_ne_cons (by decide) plain behind
    simp only [dashes]
    obtain ⟨_ | ⟨dash, others⟩, _ | ⟨c, rest⟩⟩ := flags.collectAll (· == '-') text <;> try rfl
    by_cases closing : c = ']' <;> simp [closing]
  · obtain ⟨inner, rfl⟩ := not_forall_not.mp plain
    simp only [List.cons_append, dashes]
    obtain ⟨_ | ⟨dash, others⟩, _ | ⟨c, rest⟩⟩ := flags.collectAll (· == '-') inner <;> try rfl
    by_cases closing : c = ']' <;> simp [closing]

theorem named_ne_fence {name : String} {set : CharSet} (named : CharSet.named? name = some set) :
    ')' ∉ name.toList := by
  unfold CharSet.named? at named
  dsimp only at named
  split at named
  case h_15 => cases named
  all_goals decide

/-- The name of a class with what follows it. -/
def classBody? (negated : Bool) (text : List Char) : Option (CharSet × Bool × List Char) :=
  match text.span (· != ':') with
  | (name, ':' :: ']' :: rest) =>
      (CharSet.named? (String.ofList name)).map fun set => (set, negated, rest)
  | _ => none

theorem classBody?_fence (negated : Bool) (text behind : List Char) :
    classBody? negated (text ++ ')' :: behind) =
      (classBody? negated text).map fun (set, negated, rest) => (set, negated, rest ++ ')' :: behind) := by
  unfold classBody?
  rw [List.span_eq_takeWhile_dropWhile, List.span_eq_takeWhile_dropWhile]
  cases ended : text.dropWhile (· != ':') with
  | nil =>
      -- The name would go on beyond the parenthesis, and no class is named like that.
      have inside : ')' ∈ (text ++ ')' :: behind).takeWhile (· != ':') := by
        rw [List.takeWhile_append_of_pos (List.dropWhile_eq_nil_iff.mp ended)]
        exact List.mem_append_right _ List.mem_cons_self
      dsimp only [Option.map_none]
      split
      · next name rest whole =>
          rw [(Prod.mk.inj whole).1] at inside
          cases named : CharSet.named? (String.ofList name) with
          | none => rfl
          | some set =>
              have outside := named_ne_fence named
              rw [String.toList_ofList] at outside
              exact absurd inside outside
      · rfl
  | cons c others =>
      obtain ⟨taken, left⟩ := takeWhile_ended ended (')' :: behind)
      rw [taken, left]
      rcases others with _ | ⟨d, rest⟩
      · simp
      · by_cases closing : c = ':' ∧ d = ']'
        · obtain ⟨rfl, rfl⟩ := closing
          simp only [List.cons_append, Option.map_map]
          rfl
        · have unclosed (more : List Char) (name : List Char) :
              (match (name, c :: d :: more) with
                | (name, ':' :: ']' :: rest) =>
                    (CharSet.named? (String.ofList name)).map fun set => (set, negated, rest)
                | _ => none) = none := by
            split
            · next same =>
                simp only [Prod.mk.injEq, List.cons.injEq] at same
                exact absurd ⟨same.2.1, same.2.2.1⟩ closing
            · rfl
          simp only [List.cons_append]
          rw [unclosed, unclosed]
          rfl

theorem named?_fence (text behind : List Char) :
    named? (text ++ ')' :: behind) =
      (named? text).map fun (set, negated, rest) => (set, negated, rest ++ ')' :: behind) := by
  by_cases plain : ∀ inner, text ≠ ':' :: inner
  · have plainToo := append_ne_cons (by decide) plain behind
    rw [named?.eq_3 _ plainToo, named?.eq_3 _ plain]
    rfl
  · obtain ⟨inner, rfl⟩ := not_forall_not.mp plain
    by_cases affirmed : ∀ body, inner ≠ '^' :: body
    · have affirmedToo := append_ne_cons (by decide) affirmed behind
      rw [List.cons_append, named?.eq_2 _ affirmedToo, named?.eq_2 _ affirmed]
      exact classBody?_fence false inner behind
    · obtain ⟨body, rfl⟩ := not_forall_not.mp affirmed
      exact classBody?_fence true body behind

theorem item?_local (terse : flags.verbose = false) : Local (item? flags) := by
  intro text rest escape read behind
  revert read
  fun_cases item? flags text <;> intro read
  · cases read
  · exact Escape.next?_local terse read behind
  · next c others plain =>
      cases read
      rw [List.cons_append, item?]
      exact plain

theorem member?_local (terse : flags.verbose = false) : Local (member? flags) := by
  intro text rest set read behind
  obtain ⟨⟨first, left⟩, one, onward⟩ := Option.bind_eq_some_iff.mp read
  have alone (same : ((char? flags first).map CharSet.single <|> first.class? flags).map (·, left) =
        some (set, rest)) :
      ((char? flags first).map CharSet.single <|> first.class? flags).map (·, left ++ ')' :: behind) =
        some (set, rest ++ ')' :: behind) := by
    obtain ⟨found, known, same⟩ := Option.map_eq_some_iff.mp same
    cases same
    rw [known]
    rfl
  unfold member?
  rw [item?_local terse one behind]
  simp only [Flags.skip_terse terse, Option.bind_eq_bind, Option.bind_some] at onward ⊢
  by_cases plain : ∀ inner, left ≠ '-' :: inner
  · have plainToo := append_ne_cons (by decide) plain behind
    simp only at onward ⊢
    exact alone onward
  · obtain ⟨inner, rfl⟩ := not_forall_not.mp plain
    simp only [List.cons_append] at onward alone ⊢
    by_cases neither : (∀ tail, inner ≠ ']' :: tail) ∧ ∀ tail, inner ≠ '-' :: tail
    · obtain ⟨close, dash⟩ := neither
      have closeToo := append_ne_cons (by decide) close behind
      have dashToo := append_ne_cons (by decide) dash behind
      simp only at onward ⊢
      obtain ⟨⟨last, left⟩, two, onward⟩ := Option.bind_eq_some_iff.mp onward
      obtain ⟨low, lowest, onward⟩ := Option.bind_eq_some_iff.mp onward
      obtain ⟨high, highest, onward⟩ := Option.bind_eq_some_iff.mp onward
      rw [item?_local terse two behind, Option.bind_some, lowest, Option.bind_some, highest,
        Option.bind_some]
      split at onward
      · next rises =>
          cases onward
          rw [if_pos rises]
      · cases onward
    · have ends : ∃ tail, inner = ']' :: tail ∨ inner = '-' :: tail := by
        simpa only [not_and_or, not_forall_not, ← exists_or] using neither
      obtain ⟨tail, rfl | rfl⟩ := ends
      · exact alone onward
      · exact alone onward

/-- What is read of a bracket does not depend on how many turns may be taken, as long as they suffice. -/
theorem read?_local (terse : flags.verbose = false) (behind : List Char) (fuel : Nat) :
    ∀ {more : Nat} {bracket : Bracket} {outer : List Bracket} {text rest : List Char} {set : NestedSet},
      fuel ≤ more → read? flags fuel bracket outer text = some (set, rest) →
        read? flags more bracket outer (text ++ ')' :: behind) = some (set, rest ++ ')' :: behind) := by
  induction fuel with
  | zero => intro more bracket outer text rest set _ read; cases read
  | succ fuel ih =>
      intro more bracket outer text rest set enough read
      obtain ⟨more, rfl⟩ : ∃ less, more = less + 1 := Nat.exists_eq_add_one_of_ne_zero (by omega)
      have fewer : fuel ≤ more := Nat.le_of_succ_le_succ enough
      rw [read?, Flags.skip_terse terse] at read ⊢
      split at read
      · cases read
      · simp only [List.cons_append]
        cases closing : bracket.close? flags with
        | none =>
            rw [closing] at read
            cases read
        | some closed =>
            rw [closing] at read
            cases outer with
            | nil =>
                cases read
                rfl
            | cons enclosing outer => exact ih fewer read
      · next inner =>
          simp only [List.cons_append, named?_fence, start_fence terse]
          cases found : named? inner with
          | none =>
              rw [found] at read
              rw [Option.map_none]
              exact ih fewer read
          | some named =>
              rw [found] at read
              rw [Option.map_some]
              dsimp only at read ⊢
              cases complement : negate? flags named.2.1 named.1 with
              | none =>
                  rw [complement] at read
                  cases read
              | some set =>
                  rw [complement] at read
                  exact ih fewer read
      · exact ih fewer read
      · exact ih fewer read
      · exact ih fewer read
      · next empty close opening both without differ =>
          have closeToo := append_ne_cons (by decide) close behind
          have openingToo := append_ne_cons (by decide) opening behind
          have bothToo := append_ne_pair (by decide) both behind
          have withoutToo := append_ne_pair (by decide) without behind
          have differToo := append_ne_pair (by decide) differ behind
          have nonempty : text ++ ')' :: behind ≠ [] := by simp
          simp only
          cases member : member? flags text with
          | none =>
              rw [member] at read
              cases read
          | some found =>
              rw [member] at read
              rw [member?_local terse member behind]
              exact ih fewer read

theorem next?_local (terse : flags.verbose = false) : Local (next? flags) := by
  intro text rest set read behind
  have enough : (start flags text).2.length + 1 ≤ ((start flags text).2 ++ ')' :: behind).length + 1 := by
    rw [List.length_append]
    omega
  rw [next?, start_fence terse]
  exact read?_local terse behind _ enough read

end Bracket

/-! ## Tokens -/

namespace Token

theorem lazily_fence (least : Nat) (most : Option Nat) (text behind : List Char) :
    lazily least most (text ++ ')' :: behind) =
      ((lazily least most text).1, (lazily least most text).2 ++ ')' :: behind) := by
  by_cases plain : ∀ inner, text ≠ '?' :: inner
  · have plainToo := append_ne_cons (by decide) plain behind
    rw [lazily.eq_2 _ _ _ plainToo, lazily.eq_2 _ _ _ plain]
  · obtain ⟨inner, rfl⟩ := not_forall_not.mp plain
    rfl

theorem decimal?_local (terse : flags.verbose = false) : Local (decimal? flags) := by
  intro text rest value read behind
  unfold decimal? at read ⊢
  rw [dropWhile_fence (by decide), Flags.collectAll_fence terse _ (by decide)]
  revert read
  generalize flags.collectAll Char.isDigit (text.dropWhile Unicode.isBlank) = found
  intro read
  obtain ⟨_ | ⟨digit, digits⟩, left⟩ := found
  · cases read
  · dsimp only at read ⊢
    split at read
    · next small =>
        cases read
        rw [if_pos small, dropWhile_fence (by decide)]
    · cases read

theorem braces?_local (terse : flags.verbose = false) : Local (braces? flags) := by
  intro text rest token read behind
  have bounded {least : Nat} {most : Option Nat} {left : List Char}
      (read : some (lazily least most (flags.skip left)) = some (token, rest)) :
      some (lazily least most (flags.skip (left ++ ')' :: behind))) =
        some (token, rest ++ ')' :: behind) := by
    rw [Flags.skip_terse terse] at read ⊢
    rw [lazily_fence, Option.some.inj read]
  unfold braces? at read ⊢
  rw [Flags.skip_terse terse] at read ⊢
  obtain ⟨⟨least, left⟩, one, onward⟩ := Option.bind_eq_some_iff.mp read
  rw [decimal?_local terse one behind]
  rw [Option.bind_eq_bind, Option.bind_some]
  dsimp only at onward ⊢
  split at onward
  · exact bounded onward
  · next inner =>
      simp only [List.cons_append]
      rw [Flags.skip_terse terse] at onward ⊢
      split at onward
      · exact bounded onward
      · next unclosed =>
          have unclosedToo := append_ne_cons (by decide) unclosed behind
          simp only
          obtain ⟨⟨most, left⟩, two, onward⟩ := Option.bind_eq_some_iff.mp onward
          rw [decimal?_local terse two behind, Option.bind_some]
          dsimp only at onward ⊢
          split at onward
          · simp only [List.cons_append]
            split at onward
            · next ordered =>
                rw [if_pos ordered]
                exact bounded onward
            · cases onward
          · cases onward
  · cases onward

theorem name?_local : Local name? := by
  intro text rest token read behind
  unfold name? at read ⊢
  rw [List.span_eq_takeWhile_dropWhile] at read ⊢
  split at read
  · next first others c left ended =>
      obtain ⟨named, unread⟩ := Prod.mk.inj ended
      obtain ⟨taken, more⟩ := takeWhile_ended unread (')' :: behind)
      rw [taken, more, named]
      dsimp only [List.cons_append]
      split at read
      · next valid =>
          rw [if_pos valid]
          cases read
          rfl
      · cases read
  · cases read

theorem flags?_local (changed : List (Flag × Bool)) (on afterDash : Bool) :
    Local (flags? changed on afterDash) := by
  intro text rest token read behind
  revert read
  fun_induction flags? changed on afterDash text <;> intro read
  case case1 => cases read
  all_goals
    rw [List.cons_append, flags?]
    simp_all

theorem open?_local : Local open? := by
  intro text rest token read behind
  revert read
  fun_cases open? text <;> intro read
  · exact name?_local read behind
  · cases read
  · cases read
  · next inner equal excludes =>
      have equalToo := append_ne_cons (by decide) equal behind
      have excludesToo := append_ne_cons (by decide) excludes behind
      simp only [List.cons_append, open?]
      exact name?_local read behind
  · next inner named angle =>
      have namedToo := append_ne_pair (by decide) named behind
      have angleToo := append_ne_cons (by decide) angle behind
      simp only [List.cons_append, open?]
      exact flags?_local [] true false read behind
  · next _ _ plain =>
      have plainToo := append_ne_cons (by decide) plain behind
      have namedToo (inner : List Char) : text ++ ')' :: behind ≠ '?' :: 'P' :: '<' :: inner := plainToo _
      have angleToo (inner : List Char) : text ++ ')' :: behind ≠ '?' :: '<' :: inner := plainToo _
      cases read
      simp only [open?]

theorem next?_local (terse : flags.verbose = false) : Local (next? flags) := by
  intro text rest token read behind
  have lazily {least : Nat} {most : Option Nat} {inner : List Char}
      (read : some (lazily least most inner) = some (token, rest)) :
      some (Token.lazily least most (inner ++ ')' :: behind)) = some (token, rest ++ ')' :: behind) := by
    rw [lazily_fence, Option.some.inj read]
  revert read
  fun_cases next? flags text <;> intro read
  · cases read
  · next inner =>
      obtain ⟨⟨escape, left⟩, one, onward⟩ := Option.bind_eq_some_iff.mp read
      obtain ⟨made, same, onward⟩ := Option.bind_eq_some_iff.mp onward
      cases onward
      simp only [List.cons_append, next?]
      rw [Escape.next?_local terse one behind, Option.bind_eq_bind, Option.bind_some, same]
      rfl
  · next inner =>
      obtain ⟨⟨set, left⟩, bracket, same⟩ := Option.map_eq_some_iff.mp read
      cases same
      simp only [List.cons_append, next?]
      rw [Bracket.next?_local terse bracket behind]
      rfl
  · next inner =>
      rw [Flags.skip_terse terse] at read
      simp only [List.cons_append, next?]
      rw [Flags.skip_terse terse]
      exact open?_local read behind
  case case10 => exact lazily read
  case case11 => exact lazily read
  case case12 => exact lazily read
  case case13 => exact braces?_local terse read behind
  case case14 =>
    cases read
    rw [List.cons_append, next?] <;> assumption
  all_goals
    cases read
    rfl

end Token

end Highlighting.Pattern
