import EdgeGuard.Json.Skip
import EdgeGuard.Proofs.Json.RoundTrip

/-!
# `EdgeGuard.Proofs.Json.Skip`: what can be read can be passed over

`Json.skipValue` checks only the grammar of a value. It is a second walk over the text, with its
own string automaton and its own numbers, and it takes off a text what `Json.value` takes off it:
`skipValue_of_value`. The relation between two readers is `Reader.Follows`. Arrays and objects hand
it on from their parts, and the strings follow place by place, with `StringPlace.passed` the place
at which the second walk stands.

`skip` gives a text as many levels as it has characters. No text nests deeper than that
(`depth_le_length_write`), so every written value is passed over, however deep it nests:
`skip_write`.
-/

set_option autoImplicit false

namespace EdgeGuard.Json

/-- Where the first reader gives a result, the second gives one too and leaves the same characters.
The second may take more: a walk that only checks the grammar also passes over half a surrogate
pair, and over a number beyond the largest double. -/
def Reader.Follows {α β : Type} (first : Reader α) (second : Reader β) : Prop :=
  ∀ ⦃cs x rest⦄, first cs = .ok (x, rest) → ∃ y, second cs = .ok (y, rest)

/-! ### Strings -/

/-- The place of the walk that only checks the grammar. Half a pair is nothing special there. -/
def StringPlace.passed : StringPlace → SkipPlace
  | .plain => .plain
  | .escape => .escape
  | .unit missing _ _ => .unit missing
  | .pair _ => .plain
  | .pairEscape _ => .escape

/-- A character is kept only in front of a rest of the string that was read. -/
theorem exists_of_keep {c : Char} {result : Except ReadError (List Char × List Char)}
    {text rest : List Char} (h : keep c result = .ok (text, rest)) :
    ∃ more, result = .ok (more, rest) := by
  cases result with
  | error e => exact absurd h (by simp [keep])
  | ok pair =>
    obtain ⟨more, left⟩ := pair
    cases h
    exact ⟨more, rfl⟩

/-- From every place inside a string the second walk reaches the same closing quote. The places
correspond by `StringPlace.passed`, and each place has its own way on: a quote, a backslash, or a
character that is kept. Where the first walk refuses there is nothing to show. -/
theorem skipStringBody_of_stringBody {place : StringPlace} {cs text rest : List Char}
    (h : stringBody place cs = .ok (text, rest)) :
    skipStringBody place.passed cs = .ok rest := by
  -- The induction is on the characters, and the cases are the places of the first walk.
  induction cs generalizing place text with
  | nil => exact absurd h (by simp [stringBody])
  | cons c cs ih =>
    cases place with
    | plain =>
      simp only [stringBody] at h
      simp only [StringPlace.passed, skipStringBody]
      split at h
      · next hquote =>
        cases h
        rw [if_pos hquote]
      split at h
      · next hquote hslash =>
        rw [if_neg hquote, if_pos hslash]
        exact ih h
      split at h
      · exact absurd h (by simp)
      · next hquote hslash hcontrol =>
        obtain ⟨more, hmore⟩ := exists_of_keep h
        rw [if_neg hquote, if_neg hslash, if_neg hcontrol]
        exact ih hmore
    | escape =>
      simp only [stringBody] at h
      simp only [StringPlace.passed, skipStringBody]
      split at h
      · next d hd =>
        obtain ⟨more, hmore⟩ := exists_of_keep h
        rw [hd]
        exact ih hmore
      · next hnone =>
        rw [hnone]
        split at h
        · exact absurd h (by simp)
        split at h
        · next hu hahead =>
          rw [if_neg (by simp), if_neg hu, if_pos hahead]
          exact ih h
        · exact absurd h (by simp)
    | unit missing value lead =>
      simp only [stringBody] at h
      simp only [StringPlace.passed, skipStringBody]
      split at h
      · exact absurd h (by simp)
      · next digit hdigit =>
        rw [hdigit]
        -- What the unit stands for is checked by the first walk alone.
        split at h
        · exact ih h
        · split at h
          · exact absurd h (by simp)
          split at h
          · exact ih h
          · obtain ⟨more, hmore⟩ := exists_of_keep h
            exact ih hmore
        · split at h
          · obtain ⟨more, hmore⟩ := exists_of_keep h
            exact ih hmore
          · exact absurd h (by simp)
    | pair lead =>
      simp only [stringBody] at h
      simp only [StringPlace.passed, skipStringBody]
      split at h
      · next hslash =>
        -- The second walk takes this backslash as the start of any escape.
        subst hslash
        exact ih h
      · exact absurd h (by simp)
    | pairEscape lead =>
      simp only [stringBody] at h
      simp only [StringPlace.passed, skipStringBody]
      split at h
      · exact absurd h (by simp)
      split at h
      · next hu hahead =>
        -- A unit follows, as behind any backslash and `u`.
        have hc : c = 'u' := by simpa using hu
        subst hc
        rw [show shortEscape? 'u' = none by decide, if_neg (by simp), if_neg hu, if_pos hahead]
        exact ih h
      · exact absurd h (by simp)

/-- A string is passed over where it is read. The opening quote is behind both readers, so they
start at the plain place. -/
theorem string_follows : Reader.Follows string skipString := by
  intro cs text rest h
  obtain ⟨⟨body, left⟩, hbody, h⟩ := exists_of_bind h
  cases h
  have hskip : skipStringBody .plain cs = .ok rest := skipStringBody_of_stringBody hbody
  refine ⟨(), ?_⟩
  rw [skipString, hskip]
  rfl

/-! ### Numbers -/

/-- A run of digits is all the digits that are ahead, and it is passed over where it is read. The
first part is what `wholeDigits` looks at to refuse a zero in front. -/
theorem skipDigits_of_digits {cs ds rest : List Char} (h : digits cs = .ok (ds, rest)) :
    ds = cs.takeWhile isDigit ∧ skipDigits cs = .ok rest := by
  unfold digits at h
  split at h
  · exact absurd h (by simp)
  · next hds =>
    cases h
    refine ⟨rfl, ?_⟩
    -- There is at least one digit, so the first character is one.
    cases cs with
    | nil => exact absurd rfl hds
    | cons c cs =>
      by_cases hc : isDigit c = true
      · exact if_pos hc
      · exact absurd (List.takeWhile_cons_of_neg hc) hds

/-- An exponent, or the lack of one, is passed over where it is read. A sign behind the mark is
optional to both, and at least one digit is asked for by both. -/
theorem skipExponent_of_exponent {cs rest : List Char} {power : Option Int}
    (h : exponent cs = .ok (power, rest)) : skipExponent cs = .ok rest := by
  cases cs with
  | nil =>
    cases h
    rfl
  | cons c more =>
    simp only [exponent] at h
    simp only [skipExponent]
    split at h
    · next hmark =>
      rw [if_pos hmark]
      -- The digits stand behind a sign or right behind the mark.
      split at h
      · obtain ⟨⟨ds, left⟩, hds, h⟩ := exists_of_bind h
        cases h
        exact (skipDigits_of_digits hds).2
      · obtain ⟨⟨ds, left⟩, hds, h⟩ := exists_of_bind h
        cases h
        exact (skipDigits_of_digits hds).2
      · next hminus hplus =>
        obtain ⟨⟨ds, left⟩, hds, h⟩ := exists_of_bind h
        cases h
        cases more with
        | nil => exact absurd hds (by simp [digits])
        | cons d more =>
          have hsign : ¬(d = '+' ∨ d = '-') := by
            rintro (rfl | rfl)
            · exact hplus more rfl
            · exact hminus more rfl
          simp only
          rw [if_neg hsign]
          exact (skipDigits_of_digits hds).2
    · next hmark =>
      cases h
      exact if_neg hmark

/-- Either a point and the digits behind it are taken, or there is no point and nothing is. The
second walk has no function for this part, so the cases are told apart here and used in
`skipMagnitude_of_magnitude`. -/
theorem fraction_cases {cs rest : List Char} {places : Option (List Char)}
    (h : fraction cs = .ok (places, rest)) :
    (∃ tail, cs = '.' :: tail ∧ skipDigits tail = .ok rest) ∨ (cs.head? ≠ some '.' ∧ cs = rest) := by
  cases cs with
  | nil =>
    cases h
    exact .inr ⟨by simp, rfl⟩
  | cons c tail =>
    by_cases hc : c = '.'
    · subst hc
      obtain ⟨⟨ds, left⟩, hds, h⟩ := exists_of_bind h
      cases h
      exact .inl ⟨tail, rfl, (skipDigits_of_digits hds).2⟩
    · rw [fraction_none (by simpa using hc)] at h
      cases h
      exact .inr ⟨by simpa using hc, rfl⟩

/-- A whole number with digits behind its first does not start with zero. The first walk looks at
the digits that it took, the second at the two characters that are ahead. Both ask the same. -/
theorem skipDigits_of_wholeDigits {cs ds rest : List Char} (h : wholeDigits cs = .ok (ds, rest)) :
    skipDigits cs = .ok rest ∧ ¬(cs.head? = some '0' ∧ (cs.drop 1).head?.any isDigit = true) := by
  obtain ⟨⟨read, left⟩, hread, h⟩ := exists_of_bind h
  obtain ⟨htake, hskip⟩ := skipDigits_of_digits hread
  simp only at h
  split at h
  · exact absurd h (by simp [bind, Except.bind])
  · next hlead =>
    cases h
    refine ⟨hskip, ?_⟩
    rintro ⟨hzero, hdigit⟩
    match cs, hzero, hdigit with
    | [c], _, hdigit => exact absurd hdigit (by simp)
    | c :: d :: more, hzero, hdigit =>
      -- Two digits of which the first is zero are what the first walk refuses.
      have hc : c = '0' := by simpa using hzero
      have hd : isDigit d = true := by simpa using hdigit
      subst hc
      refine hlead ?_
      rw [htake, List.takeWhile_cons_of_pos (by decide), List.takeWhile_cons_of_pos hd]
      simp

/-- A number without its sign is passed over where it is read. Whole digits, decimal places and
exponent are passed over one after the other. The second walk does not ask whether a double holds
the number. -/
theorem skipMagnitude_of_magnitude {negative : Bool} {cs rest : List Char} {n : Number}
    (h : magnitude negative cs = .ok (n, rest)) : skipMagnitude cs = .ok rest := by
  obtain ⟨⟨whole, afterWhole⟩, hwhole, h⟩ := exists_of_bind h
  obtain ⟨⟨places, afterPlaces⟩, hplaces, h⟩ := exists_of_bind h
  obtain ⟨⟨power, afterPower⟩, hpower, h⟩ := exists_of_bind h
  simp only at h hplaces hpower
  -- Whether a double holds the number is the last thing the first walk checks.
  have hrest : afterPower = rest := by
    split at h
    · cases h
      rfl
    · exact absurd h (by simp)
  subst hrest
  obtain ⟨hskip, hlead⟩ := skipDigits_of_wholeDigits hwhole
  unfold skipMagnitude
  rw [hskip, ok_bind, if_neg hlead]
  dsimp only
  -- The point decides which branch the second walk takes, as it did for the first.
  rcases fraction_cases hplaces with ⟨tail, rfl, hdigits⟩ | ⟨hpoint, rfl⟩
  · show (skipDigits tail >>= skipExponent) = _
    rw [hdigits]
    exact skipExponent_of_exponent hpower
  · split
    · exact absurd rfl hpoint
    · exact skipExponent_of_exponent hpower

/-- A number is passed over at every depth. The first character decides which kind of value is
ahead, and only a number starts with a digit or a sign. -/
theorem skipValue_of_number {depth : Nat} {cs tail rest : List Char} {c : Char} {n : Number}
    (hcs : skipSpace cs = c :: tail) (hc : c = '-' ∨ isDigit c = true)
    (h : number (c :: tail) = .ok (n, rest)) : skipValue depth cs = .ok ((), rest) := by
  rw [skipValue, hcs]
  by_cases hminus : c = '-'
  · subst hminus
    have hskip : skipMagnitude tail = .ok rest := skipMagnitude_of_magnitude h
    simp only
    rw [hskip]
    rfl
  · have hdigit : isDigit c = true := hc.resolve_left hminus
    have hskip : skipMagnitude (c :: tail) = .ok rest := by
      unfold number at h
      split at h
      · next heq =>
        cases heq
        exact absurd rfl hminus
      · exact skipMagnitude_of_magnitude h
    split <;> rename_i heq <;> cases heq
    case h_9 =>
      rw [if_pos hdigit, hskip]
      rfl
    -- No other kind of value starts with a digit.
    all_goals exact absurd hdigit (by decide)

/-! ### Arrays and objects -/

section
variable {α β : Type} {first : Reader α} {second : Reader β}

/-- An item and the items that `next` reads behind it. This is the one step that the first item of
an array and the later ones share, so it is stated for any reader of what comes next. -/
theorem consItem_follows {next : Reader (List α)} {next' : Reader (List β)}
    (h : Reader.Follows first second) (hnext : Reader.Follows next next') :
    Reader.Follows
      (fun cs => do
        let (x, rest) ← first cs
        let (xs, rest) ← next rest
        return (x :: xs, rest))
      (fun cs => do
        let (y, rest) ← second cs
        let (ys, rest) ← next' rest
        return (y :: ys, rest)) := by
  intro cs xs rest hxs
  obtain ⟨⟨x, afterItem⟩, hx, hxs⟩ := exists_of_bind hxs
  obtain ⟨⟨more, afterMore⟩, hmore, hxs⟩ := exists_of_bind hxs
  cases hxs
  obtain ⟨y, hy⟩ := h hx
  obtain ⟨ys, hys⟩ := hnext hmore
  refine ⟨y :: ys, ?_⟩
  simp only
  rw [hy, ok_bind]
  simp only
  rw [hys]
  rfl

/-- The same number of steps is enough for both. Both stop at the same bracket and ask for the same
commas, so only the items themselves matter. -/
theorem moreItems_follows (h : Reader.Follows first second) (fuel : Nat) :
    Reader.Follows (moreItems first fuel) (moreItems second fuel) := by
  induction fuel with
  | zero => exact fun _ _ _ hxs => absurd hxs (by simp [moreItems])
  | succ fuel ih =>
    intro cs xs rest hxs
    rw [moreItems] at hxs
    rw [moreItems]
    split at hxs
    · exact absurd hxs (by simp)
    · cases hxs
      exact ⟨[], rfl⟩
    · simp only
      split at hxs
      · exact absurd hxs (by simp)
      · exact absurd hxs (by simp)
      · exact consItem_follows h ih hxs
    · exact absurd hxs (by simp)

/-- An array is passed over as far as it is read when its items are. -/
theorem items_follows (h : Reader.Follows first second) :
    Reader.Follows (items first) (items second) := by
  intro cs xs rest hxs
  rw [items] at hxs
  rw [items]
  split at hxs
  · exact absurd hxs (by simp)
  · cases hxs
    exact ⟨[], rfl⟩
  · -- The steps behind the first item are counted from the characters that it left.
    have hnext : Reader.Follows (fun cs => moreItems first (cs.length + 1) cs)
        (fun cs => moreItems second (cs.length + 1) cs) :=
      fun cs _ _ hmore => moreItems_follows h (cs.length + 1) hmore
    exact consItem_follows h hnext hxs

variable {ν μ : Type} {name : Reader ν} {label : Reader μ}

/-- A field is passed over where it is read, when its name and its value are. The colon between the
two is read by the same function. -/
theorem field_follows (hname : Reader.Follows name label) (h : Reader.Follows first second) :
    Reader.Follows (field name first) (field label second) := by
  intro cs pair rest hpair
  obtain ⟨⟨key, afterName⟩, hkey, hpair⟩ := exists_of_bind hpair
  obtain ⟨afterColon, hcolon, hpair⟩ := exists_of_bind hpair
  obtain ⟨⟨x, afterValue⟩, hx, hpair⟩ := exists_of_bind hpair
  cases hpair
  obtain ⟨key', hkey'⟩ := hname hkey
  obtain ⟨y, hy⟩ := h hx
  refine ⟨(key', y), ?_⟩
  rw [field, hkey', ok_bind]
  simp only at hcolon ⊢
  rw [hcolon, ok_bind, hy]
  rfl

/-- The fields are passed over where they are read. The same number of steps is enough for both. A
comma or the closing brace is read by the same function, so both go on or stop together. -/
theorem moreFields_follows (hname : Reader.Follows name label) (h : Reader.Follows first second)
    (fuel : Nat) : Reader.Follows (moreFields name first fuel) (moreFields label second fuel) := by
  induction fuel with
  | zero => exact fun _ _ _ hpairs => absurd hpairs (by simp [moreFields])
  | succ fuel ih =>
    intro cs pairs rest hpairs
    rw [moreFields] at hpairs
    obtain ⟨⟨pair, afterField⟩, hpair, hpairs⟩ := exists_of_bind hpairs
    obtain ⟨⟨goesOn, afterMark⟩, hmark, hpairs⟩ := exists_of_bind hpairs
    obtain ⟨pair', hpair'⟩ := field_follows hname h hpair
    rw [moreFields, hpair', ok_bind]
    simp only
    rw [hmark, ok_bind]
    cases goesOn with
    | false =>
      cases hpairs
      exact ⟨[pair'], rfl⟩
    | true =>
      obtain ⟨⟨more, afterMore⟩, hmore, hpairs⟩ := exists_of_bind hpairs
      cases hpairs
      obtain ⟨more', hmore'⟩ := ih hmore
      refine ⟨pair' :: more', ?_⟩
      simp only [if_true]
      rw [hmore']
      rfl

/-- An object is passed over as far as it is read when its names and their values are. -/
theorem fields_follows (hname : Reader.Follows name label) (h : Reader.Follows first second) :
    Reader.Follows (fields name first) (fields label second) := by
  intro cs pairs rest hpairs
  obtain ⟨⟨goesOn, afterMark⟩, hmark, hpairs⟩ := exists_of_bind hpairs
  rw [fields, hmark, ok_bind]
  cases goesOn with
  | false =>
    cases hpairs
    exact ⟨[], rfl⟩
  | true => exact moreFields_follows hname h _ hpairs

end

/-! ### Values -/

/-- A value that is read within a depth is passed over within that depth. The level that an array or
an object takes is counted alike, so the parts are walked with one level less in both. -/
theorem value_follows (depth : Nat) : Reader.Follows (value depth) (skipValue depth) := by
  -- The induction is on the levels that are left, and the cases are the kinds of value.
  induction depth using Nat.strongRecOn with
  | _ depth ih =>
    intro cs v rest h
    refine ⟨(), ?_⟩
    rw [value] at h
    split at h
    · exact absurd h (by simp)
    -- The three words are read and passed over by the same function.
    iterate 3
      · next hcs =>
        obtain ⟨left, hword, h⟩ := exists_of_bind h
        cases h
        rw [skipValue, hcs]
        simp only
        rw [hword]
        rfl
    · next hcs =>
      obtain ⟨⟨text, left⟩, htext, h⟩ := exists_of_bind h
      cases h
      obtain ⟨_, hskip⟩ := string_follows htext
      rw [skipValue, hcs]
      exact hskip
    · next hcs =>
      cases depth with
      | zero => exact absurd h (by simp)
      | succ depth =>
        obtain ⟨⟨values, left⟩, hvalues, h⟩ := exists_of_bind h
        cases h
        obtain ⟨passed, hpassed⟩ := items_follows (ih depth (Nat.lt_succ_self _)) hvalues
        rw [skipValue, hcs]
        simp only
        rw [hpassed]
        rfl
    · next hcs =>
      cases depth with
      | zero => exact absurd h (by simp)
      | succ depth =>
        obtain ⟨⟨pairs, left⟩, hpairs, h⟩ := exists_of_bind h
        cases h
        obtain ⟨passed, hpassed⟩ :=
          fields_follows string_follows (ih depth (Nat.lt_succ_self _)) hpairs
        rw [skipValue, hcs]
        simp only
        rw [hpassed]
        rfl
    · next hcs =>
      split at h
      · next hc =>
        obtain ⟨⟨n, left⟩, hn, h⟩ := exists_of_bind h
        cases h
        exact skipValue_of_number hcs hc hn
      · exact absurd h (by simp)

/-! ### Written values -/

/-- What follows a value comes with all its characters. -/
theorem length_write (value : Json) (rest : List Char) :
    (value.write rest).length = (value.write []).length + rest.length := by
  have hwrite := write_append value [] rest
  rw [List.nil_append] at hwrite
  rw [hwrite, List.length_append]

/-- Items nest less deep than their text has characters when each has as many characters as levels:
the closing bracket is one more. Commas only add to the characters. -/
theorem depthItems_lt_length {items : List Json}
    (h : ∀ item ∈ items, ∀ rest, item.depth ≤ (item.write rest).length) {rest : List Char}
    (hrest : 0 < rest.length) : depthItems items < (writeItems items rest).length := by
  induction items with
  | nil => exact hrest
  | cons value more ih =>
    have hvalue := h value List.mem_cons_self (writeItems more rest)
    have hmore := ih fun item hitem => h item (List.mem_cons_of_mem _ hitem)
    have hlength := length_write value (writeItems more rest)
    rw [depthItems, writeItems, List.length_cons]
    -- The comma in front of the value is one character, and the deeper of the two bounds holds for
    -- both.
    omega

/-- The values of fields nest less deep than their text has characters when each has as many
characters as levels. -/
theorem depthFields_lt_length {fields : List (String × Json)}
    (h : ∀ field ∈ fields, ∀ rest, field.2.depth ≤ (field.2.write rest).length)
    {rest : List Char} (hrest : 0 < rest.length) :
    depthFields fields < (writeFields fields rest).length := by
  induction fields with
  | nil => exact hrest
  | cons field more ih =>
    obtain ⟨name, value⟩ := field
    have hvalue := h (name, value) List.mem_cons_self (writeFields more rest)
    have hmore := ih fun field hfield => h field (List.mem_cons_of_mem _ hfield)
    have hlength := length_write value (writeFields more rest)
    simp only at hvalue
    simp only [depthFields, writeFields, writeString, List.length_cons, List.length_append]
    omega

/-- A value nests no deeper than its text has characters. Scalars nest not at all, and an array or
an object takes one level for at least two characters. -/
theorem depth_le_length_write (value : Json) (rest : List Char) :
    value.depth ≤ (value.write rest).length := by
  induction value generalizing rest with
  | null => exact Nat.zero_le _
  | bool b => exact Nat.zero_le _
  | num n => exact Nat.zero_le _
  | str text => exact Nat.zero_le _
  | arr items ih =>
    -- The bracket makes up for the level that the array itself takes.
    have hitems := depthItems_lt_length ih (show 0 < (']' :: rest).length by simp)
    cases items with
    | nil => simp [write, depth, depthItems]
    | cons first more =>
      rw [writeItems, List.length_cons] at hitems
      rw [write, depth, List.length_cons]
      exact hitems
  | obj fields ih =>
    -- As with the bracket, the brace makes up for the level of the object.
    have hfields := depthFields_lt_length ih (show 0 < ('\x7d' :: rest).length by simp)
    cases fields with
    | nil => simp [write, depth, depthFields]
    | cons first more =>
      obtain ⟨name, value⟩ := first
      rw [writeFields, List.length_cons] at hfields
      rw [write, depth, List.length_cons]
      exact hfields

/-- A written value is passed over, however deep it nests. The text itself bounds the nesting:
`skip` starts with as many levels as there are characters, and no value needs more. -/
theorem skip_write (value : Json) {rest : List Char} (hrest : Ends rest) :
    skip (value.write rest) = .ok ((), rest) := by
  have hread := readsBack value (value.write rest).length rest hrest
  rw [fit, if_pos (depth_le_length_write value rest)] at hread
  obtain ⟨_, hskip⟩ := value_follows _ hread
  exact hskip

end EdgeGuard.Json
