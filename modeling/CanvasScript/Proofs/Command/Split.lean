import CanvasScript.Command.Line
import CanvasScript.Proofs.Decimal.Numeral
import CanvasScript.Proofs.Text.Trim

/-!
# Splitting parameters

A token is closed when a scan over it ends outside quotes and parentheses without meeting a comma
there. Closed tokens that are joined by commas are cut by `_split_params` where they were joined,
and whatever is cut is joined again by commas, up to the blanks around its parts.

* `next` is one step of the scan that the cutting makes, and `scan` are its steps up to a comma at
  which it would cut.
* `pieces_append`: **cutting goes on behind what is scanned**.
* `AreCut`: a scan ends outside quotes and parentheses behind all pieces but the last one.
  `pieces_of_areCut` and `areCut_pieces`: **cutting and joining such pieces undo each other**.
* `Padded`: a token with blanks around it. `splitParameters_joined`: **padded tokens are cut into
  the tokens**, so that joined ones are cut into themselves (`splitParameters_intercalate`).
* `splitParameters_inverts`: **splitting inverts joining**, and loses blanks only.
-/

namespace CanvasScript.Line

open Text

/-! ## The scan -/

/-- Where a scan stands: inside a quote, if it is, and inside so many parentheses. -/
abbrev Place := Option Char × Int

/-- The place behind a character, unless the scan cuts there. -/
def next : Place → Char → Option Place
  | (some q, depth), c => some (if c == q then none else some q, depth)
  | (none, depth), c =>
    if isQuote c then some (some c, depth)
    else if c == '(' then some (none, depth + 1)
    else if c == ')' then some (none, depth - 1)
    else if c == ',' && depth == 0 then none
    else some (none, depth)

/-- The place behind characters, unless the scan cuts among them. -/
def scan (place : Place) (s : List Char) : Option Place := s.foldlM next place

theorem scan_cons (place : Place) (c : Char) (s : List Char) :
    scan place (c :: s) = (next place c).bind (scan · s) := by
  unfold scan
  rw [List.foldlM_cons]
  rfl

/-- **Cutting takes one step of the scan after another.** -/
theorem pieces_cons (place : Place) (started : List Char) (c : Char) (rest : List Char) :
    pieces place.1 place.2 started (c :: rest) =
      match next place c with
      | some place => pieces place.1 place.2 (c :: started) rest
      | none => started.reverse :: pieces none 0 [] rest := by
  obtain ⟨quote, depth⟩ := place
  cases quote with
  | some q => rfl
  | none =>
    rw [pieces]
    unfold next
    dsimp only
    split
    · rfl
    · split
      · rfl
      · split
        · rfl
        · split <;> rfl

/-- **Cutting goes on behind what is scanned.** -/
theorem pieces_append {s : List Char} {place place' : Place} (h : scan place s = some place')
    (started rest : List Char) :
    pieces place.1 place.2 started (s ++ rest) =
      pieces place'.1 place'.2 (s.reverse ++ started) rest := by
  induction s generalizing place started with
  | nil =>
    cases h
    rfl
  | cons c s ih =>
    rw [scan_cons] at h
    obtain ⟨behind, hnext, h⟩ := Option.bind_eq_some_iff.mp h
    rw [List.cons_append, pieces_cons, hnext, List.reverse_cons, List.append_assoc]
    exact ih h (c :: started)

/-- A scan of two stretches goes on over the second from where the first leaves it. -/
theorem scan_append (place : Place) (s t : List Char) :
    scan place (s ++ t) = (scan place s).bind (scan · t) := by
  unfold scan
  rw [List.foldlM_append]
  rfl

/-- Where a scan begins, and where a token ends. -/
def Place.outside : Place := (none, 0)

/-- A scan begins outside, where nothing has been started yet. -/
theorem scan_nil : scan .outside ([] : List Char).reverse = some .outside := rfl

/-- A scan cuts at the commas outside quotes and parentheses only. -/
theorem of_next_eq_none {place : Place} {c : Char} (h : next place c = none) :
    place = .outside ∧ c = ',' := by
  obtain ⟨quote, depth⟩ := place
  cases quote with
  | some q => cases h
  | none =>
    unfold next at h
    dsimp only at h
    split_ifs at h with _ _ _ hcut
    rw [Bool.and_eq_true, beq_iff_eq, beq_iff_eq] at hcut
    obtain ⟨rfl, rfl⟩ := hcut
    exact ⟨rfl, rfl⟩

/-- Characters that mean nothing to a scan outside quotes leave it there. -/
theorem scan_of_forall {s : List Char} (h : ∀ c ∈ s, next .outside c = some .outside) :
    scan .outside s = some .outside := by
  induction s with
  | nil => rfl
  | cons c s ih =>
    obtain ⟨hc, hs⟩ := List.forall_mem_cons.mp h
    rw [scan_cons, hc]
    exact ih hs

theorem next_blank {c : Char} (h : isBlank c = true) : next .outside c = some .outside := by
  have hne (other : Char) (hother : isBlank other = false) : (c == other) = false := by
    rw [beq_eq_false_iff_ne]
    rintro rfl
    exact Bool.noConfusion (h.symm.trans hother)
  show (if isQuote c then _ else _) = _
  unfold isQuote
  rw [hne '"' (by decide), hne '\'' (by decide), hne '(' (by decide), hne ')' (by decide),
    hne ',' (by decide)]
  rfl

/-- Blanks that stand outside quotes are scanned over. -/
theorem scan_blanks {s : List Char} (h : s.all isBlank = true) :
    scan .outside s = some .outside :=
  scan_of_forall fun c hc => next_blank (List.all_eq_true.mp h c hc)

/-! ## Pieces -/

/-- Pieces that a scan cuts apart when commas join them. It cuts in none of them, and behind all but
the last one it is outside quotes and parentheses. -/
inductive AreCut : List (List Char) → Prop
  | last {piece : List Char} {place : Place} (h : scan .outside piece = some place) :
    AreCut [piece]
  | cons {piece : List Char} {rest : List (List Char)} (h : scan .outside piece = some .outside)
    (hrest : AreCut rest) : AreCut (piece :: rest)

theorem AreCut.ne_nil {joined : List (List Char)} (h : AreCut joined) : joined ≠ [] := by
  cases h with
  | last => exact List.cons_ne_nil _ _
  | cons => exact List.cons_ne_nil _ _

/-- Pieces that leave a scan outside are cut apart, if there are any. -/
theorem areCut_of_forall {joined : List (List Char)} (hne : joined ≠ [])
    (h : ∀ piece ∈ joined, scan .outside piece = some .outside) : AreCut joined := by
  induction joined with
  | nil => exact absurd rfl hne
  | cons piece rest ih =>
    obtain ⟨hpiece, hrest⟩ := List.forall_mem_cons.mp h
    cases rest with
    | nil => exact .last hpiece
    | cons other rest => exact .cons hpiece (ih (List.cons_ne_nil _ _) hrest)

/-- **Pieces that are joined by commas are cut where they were joined.** -/
theorem pieces_of_areCut {joined : List (List Char)} (h : AreCut joined) :
    pieces none 0 [] ([','].intercalate joined) = joined := by
  induction h with
  | @last piece _ h =>
    rw [List.intercalate_singleton, ← List.append_nil piece]
    refine (pieces_append h [] []).trans ?_
    rw [pieces, List.append_nil, List.append_nil, List.reverse_reverse]
  | @cons piece rest h hrest ih =>
    rw [List.intercalate_cons_of_ne_nil hrest.ne_nil, List.append_assoc]
    refine (pieces_append h [] _).trans ?_
    rw [List.singleton_append, pieces_cons, List.append_nil, List.reverse_reverse]
    exact congrArg (piece :: ·) ih

/-- **What is cut into pieces is joined again by commas**, also where a scan of its first characters
has begun. -/
theorem areCut_pieces {place : Place} {started : List Char}
    (h : scan .outside started.reverse = some place) (s : List Char) :
    AreCut (pieces place.1 place.2 started s) ∧
      [','].intercalate (pieces place.1 place.2 started s) = started.reverse ++ s := by
  induction s generalizing place started with
  | nil =>
    rw [pieces, List.intercalate_singleton, List.append_nil]
    exact ⟨.last h, rfl⟩
  | cons c rest ih =>
    rw [pieces_cons]
    cases hnext : next place c with
    | some behind =>
      have hstarted : scan .outside (c :: started).reverse = some behind := by
        rw [List.reverse_cons, scan_append, h]
        exact (scan_cons place c []).trans (by rw [hnext]; rfl)
      obtain ⟨hcut, hjoined⟩ := ih hstarted
      rw [List.reverse_cons, List.append_assoc] at hjoined
      exact ⟨hcut, hjoined⟩
    | none =>
      obtain ⟨rfl, rfl⟩ := of_next_eq_none hnext
      obtain ⟨hcut, hjoined⟩ : AreCut (pieces none 0 [] rest) ∧
          [','].intercalate (pieces none 0 [] rest) = rest := ih scan_nil
      dsimp only
      refine ⟨.cons h hcut, ?_⟩
      rw [List.intercalate_cons_of_ne_nil hcut.ne_nil, List.append_assoc]
      exact congrArg (started.reverse ++ ',' :: ·) hjoined

/-! ## Tokens -/

/-- A token without blanks around it, over which a scan ends where it began. -/
structure Closed (token : List Char) : Prop where
  bare : Bare isBlank token
  ne_nil : token ≠ []
  scan : Line.scan .outside token = some .outside

theorem closed_iff (token : List Char) : Closed token ↔
    (token.head?.all (!isBlank ·) = true ∧ token.getLast?.all (!isBlank ·) = true) ∧
      token ≠ [] ∧ Line.scan .outside token = some .outside := by
  simp only [Option.all_eq_true, Bool.not_eq_true']
  exact ⟨fun h => ⟨⟨h.bare.head, h.bare.last⟩, h.ne_nil, h.scan⟩,
    fun ⟨⟨hhead, hlast⟩, hne, hscan⟩ => ⟨⟨hhead, hlast⟩, hne, hscan⟩⟩

instance (token : List Char) : Decidable (Closed token) :=
  decidable_of_iff _ (closed_iff token).symm

/-- A token with the blanks around it. -/
structure Padded where
  lead : List Char
  token : List Char
  trail : List Char
  lead_blank : lead.all isBlank = true
  trail_blank : trail.all isBlank = true

/-- The token with its blanks. -/
def Padded.text (p : Padded) : List Char := p.lead ++ (p.token ++ p.trail)

/-- Padded tokens, joined by commas. -/
def joined (padded : List Padded) : List Char := [','].intercalate (padded.map (·.text))

/-- The padding is what trimming takes away. -/
theorem Padded.trim_text (p : Padded) (h : Bare isBlank p.token) : trim p.text = p.token :=
  trimBy_append h (List.all_eq_true.mp p.lead_blank) (List.all_eq_true.mp p.trail_blank)

/-- A scan goes over a closed token with its blanks. -/
theorem Padded.scan_text (p : Padded) (h : Closed p.token) :
    scan .outside p.text = some .outside := by
  unfold text
  rw [scan_append, scan_blanks p.lead_blank, Option.bind_some, scan_append, h.scan,
    Option.bind_some, scan_blanks p.trail_blank]

/-- Every piece is a token with blanks around it. -/
theorem exists_padded (parts : List (List Char)) : ∃ padded : List Padded,
    padded.map (·.text) = parts ∧ ∀ p ∈ padded, Bare isBlank p.token := by
  induction parts with
  | nil => exact ⟨[], rfl, fun _ hmem => nomatch hmem⟩
  | cons part rest ih =>
    obtain ⟨padded, htexts, hbare⟩ := ih
    obtain ⟨lead, trail, hlead, htrail, hpart⟩ := exists_trimBy isBlank part
    refine ⟨⟨lead, trim part, trail, List.all_eq_true.mpr hlead, List.all_eq_true.mpr htrail⟩ ::
      padded, ?_, ?_⟩
    · rw [List.map_cons, htexts]
      exact congrArg (· :: rest) hpart.symm
    · exact List.forall_mem_cons.mpr ⟨bare_trimBy isBlank part, hbare⟩

/-- **Padded tokens are cut into the tokens**, and a lone one that is empty into none. -/
theorem splitParameters_joined {padded : List Padded} (hcut : AreCut (padded.map (·.text)))
    (hbare : ∀ p ∈ padded, Bare isBlank p.token) :
    splitParameters (joined padded) =
      if padded.map (·.token) = [[]] then [] else padded.map (·.token) := by
  have htokens : (padded.map (·.text)).map trim = padded.map (·.token) := by
    rw [List.map_map]
    exact List.map_congr_left fun p hp => p.trim_text (hbare p hp)
  unfold splitParameters joined
  rw [pieces_of_areCut hcut, htokens]
  split
  · rename_i hlone
    exact (if_pos hlone).symm
  · rename_i hsome
    exact (if_neg hsome).symm

/-- **Closed tokens are found again**, whatever blanks stand around them. -/
theorem splitParameters_padded {padded : List Padded} (hne : padded ≠ [])
    (h : ∀ p ∈ padded, Closed p.token) :
    splitParameters (joined padded) = padded.map (·.token) := by
  have hcut : AreCut (padded.map (·.text)) := by
    refine areCut_of_forall (List.map_eq_nil_iff.not.mpr hne) fun _ htext => ?_
    obtain ⟨p, hp, rfl⟩ := List.mem_map.mp htext
    exact p.scan_text (h p hp)
  have hsome : padded.map (·.token) ≠ [[]] := by
    intro hlone
    obtain ⟨p, hp, hnil⟩ := List.mem_map.mp (hlone ▸ List.mem_singleton.mpr rfl)
    exact (h p hp).ne_nil hnil
  rw [splitParameters_joined hcut fun p hp => (h p hp).bare, if_neg hsome]

/-- A comma and a space join what commas alone join when the space belongs to what follows. -/
theorem intercalate_space (token : List Char) (rest : List (List Char)) :
    [',', ' '].intercalate (token :: rest) = [','].intercalate (token :: rest.map (' ' :: ·)) := by
  induction rest generalizing token with
  | nil => rfl
  | cons other rest ih =>
    rw [List.intercalate_cons_cons, ih, List.map_cons, List.intercalate_cons_cons]
    cases rest with
    | nil => simp [List.intercalate_singleton]
    | cons more rest => simp [List.intercalate_cons_cons]

/-- **Joined tokens are cut into themselves.** -/
theorem splitParameters_intercalate {tokens : List (List Char)}
    (h : ∀ token ∈ tokens, Closed token) :
    splitParameters ([',', ' '].intercalate tokens) = tokens := by
  cases tokens with
  | nil => rfl
  | cons token rest =>
    obtain ⟨htoken, hrest⟩ := List.forall_mem_cons.mp h
    -- the space behind a comma is the padding of the token that follows
    have hpadded : splitParameters (joined (⟨[], token, [], rfl, rfl⟩ ::
        rest.map fun other => ⟨[' '], other, [], rfl, rfl⟩)) = _ :=
      splitParameters_padded (List.cons_ne_nil _ _)
        (List.forall_mem_cons.mpr ⟨htoken, List.forall_mem_map.mpr hrest⟩)
    unfold joined at hpadded
    simp only [List.map_cons, List.map_map, Function.comp_def, Padded.text, List.nil_append,
      List.append_nil, List.singleton_append, List.map_id'] at hpadded
    rwa [intercalate_space]

/-- **Splitting inverts joining, and loses blanks only.** Closed tokens are found again where commas
join them, with a space or with any blanks around them. And all characters are padded tokens that
are joined by commas, at which a scan cuts; what is returned is joined to the same characters
without the padding. -/
theorem splitParameters_inverts :
    (∀ tokens : List (List Char), (∀ token ∈ tokens, Closed token) →
      splitParameters ([',', ' '].intercalate tokens) = tokens) ∧
    (∀ padded : List Padded, padded ≠ [] → (∀ p ∈ padded, Closed p.token) →
      splitParameters (joined padded) = padded.map (·.token)) ∧
    ∀ s : List Char, ∃ padded : List Padded, joined padded = s ∧
      AreCut (padded.map (·.text)) ∧ (∀ p ∈ padded, Bare isBlank p.token) ∧
      splitParameters s = (if padded.map (·.token) = [[]] then [] else padded.map (·.token)) ∧
      [','].intercalate (splitParameters s) = [','].intercalate (padded.map (·.token)) := by
  refine ⟨fun _ => splitParameters_intercalate, fun _ => splitParameters_padded, fun s => ?_⟩
  obtain ⟨hcut, hjoined⟩ := areCut_pieces scan_nil s
  obtain ⟨padded, htexts, hbare⟩ := exists_padded (pieces none 0 [] s)
  have hs : joined padded = s := by
    unfold joined
    rw [htexts]
    exact hjoined
  have hcut' : AreCut (padded.map (·.text)) := htexts ▸ hcut
  have hsplit := splitParameters_joined hcut' hbare
  rw [hs] at hsplit
  refine ⟨padded, hs, hcut', hbare, hsplit, ?_⟩
  rw [hsplit]
  split
  · rename_i hlone
    rw [hlone]
    rfl
  · rfl

/-- A text in quotes that holds a comma and a parenthesis, a call inside a call, and parentheses of
which the first closes. -/
def nestedTokens : List (List Char) :=
  ["\"a, (b\"".toList, "f(1, (2, 3))".toList, ")(".toList]

/-- The same tokens with blanks around them. -/
def nestedPadded : List Padded := [
  ⟨[], "\"a, (b\"".toList, ['\t'], rfl, rfl⟩,
  ⟨[], "f(1, (2, 3))".toList, [' ', ' '], rfl, rfl⟩,
  ⟨['\n'], ")(".toList, [' '], rfl, rfl⟩]

/-- Both ways of joining the tokens give them back. A text that ends inside a quote has three parts,
of which one is empty. -/
theorem splitParameters_inverts_nested :
    (∀ token ∈ nestedTokens, Closed token) ∧
      splitParameters "\"a, (b\", f(1, (2, 3)), )(".toList = nestedTokens ∧
      splitParameters "\"a, (b\"\t,f(1, (2, 3))  ,\n)( ".toList = nestedTokens ∧
      ∃ padded, joined padded = " 1 ,\t, (2, \"x ".toList ∧ AreCut (padded.map (·.text)) ∧
        padded.map (·.token) = [['1'], [], "(2, \"x".toList] ∧
        [','].intercalate (splitParameters " 1 ,\t, (2, \"x ".toList) = "1,,(2, \"x".toList := by
  have hclosed : ∀ token ∈ nestedTokens, Closed token := by decide +kernel
  obtain ⟨htokens, hpadded, hall⟩ := splitParameters_inverts
  have hjoined : splitParameters (joined nestedPadded) = nestedTokens :=
    hpadded nestedPadded (List.cons_ne_nil _ _) (by decide +kernel)
  obtain ⟨padded, hs, hcut, -, hsplit, hsame⟩ := hall " 1 ,\t, (2, \"x ".toList
  have hthree : splitParameters " 1 ,\t, (2, \"x ".toList = [['1'], [], "(2, \"x".toList] := by
    decide +kernel
  have hpieces : padded.map (·.token) = [['1'], [], "(2, \"x".toList] := by
    rw [hthree] at hsplit
    split at hsplit
    · cases hsplit
    · exact hsplit.symm
  refine ⟨hclosed, htokens nestedTokens hclosed, hjoined, padded, hs, hcut, hpieces, ?_⟩
  rw [hsame, hpieces]
  decide +kernel

/-! ## Written tokens -/

/-- Numbers are closed. -/
theorem closed_of_isWritten {s : List Char} (h : Decimal.IsWritten s) (hne : s ≠ []) :
    Closed s := by
  have hblank : ∀ c ∈ Decimal.writtenCharacters, isBlank c = false :=
    List.all_iff_forall_prop.mp (by decide)
  have hnext : ∀ c ∈ Decimal.writtenCharacters, next .outside c = some .outside :=
    List.all_iff_forall_prop.mp (by decide)
  exact ⟨bare_of_all fun c hc => hblank c (h c hc), hne,
    scan_of_forall fun c hc => hnext c (h c hc)⟩

theorem scan_inside {s : List Char} (h : ∀ c ∈ s, c ≠ '"') :
    scan (some '"', 0) (s ++ ['"']) = some .outside := by
  induction s with
  | nil => rfl
  | cons c s ih =>
    obtain ⟨hc, hs⟩ := List.forall_mem_cons.mp h
    have hnext : next (some '"', 0) c = some (some '"', 0) :=
      congrArg (fun quote => some (quote, (0 : Int))) (if_neg (by simpa using hc))
    rw [List.cons_append, scan_cons, hnext]
    exact ih hs

/-- Texts in quotes are closed, if they hold none. -/
theorem closed_quoted {s : List Char} (h : ∀ c ∈ s, c ≠ '"') : Closed ('"' :: s ++ ['"']) := by
  refine ⟨bare_cons_concat (by decide) (by decide) s, List.cons_ne_nil _ _, ?_⟩
  rw [List.cons_append, scan_cons]
  exact scan_inside h

end CanvasScript.Line
