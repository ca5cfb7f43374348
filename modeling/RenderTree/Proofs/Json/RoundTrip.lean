import RenderTree.Json.Reader
import Mathlib.Data.List.Nodup

/-!
# Reading what was written

The text of a value is read back as that value, whatever symbols its strings consist of and
however deep it is nested. Numbers are left out, and so are objects with a key more than once, of
which only the last member would come back.

* `Json.stringRest_encodeSymbol`, `Json.stringRest_flatMap` — what is written for a symbol, and for
  a string, is read as that.
* `Json.Plain` — the values that are read back.
* `Json.ReadsBack`, `Json.readsBack_all` — values, items and members are read back in as many steps
  as they have symbols.
* `Json.parse_render` — documents are read back.
-/

namespace RenderTree.Json

variable {c x : Char} {cs done rest : Text} {start u level fuel : Nat}

/-! ### Strings -/

/-- A letter behind a backslash is read as the character that it stands for. -/
theorem stringRest_escaped (h : escaped? c = some x) :
    stringRest start done (Symbol.char '\\' :: Symbol.char c :: rest) =
      stringRest start (Symbol.char x :: done) rest := by
  have hu : c ≠ 'u' := by
    rintro rfl
    simp [escaped?] at h
  rw [stringRest.eq_def]
  simp [hu, h]

/-- Four digits behind a backslash and a `u` are read as the symbol of their unit, unless that is
the first of a pair. -/
theorem stringRest_unicode {a b d e : Symbol} (hu : unit? a b d e = some u)
    (hhigh : isHigh u = false) (hrest : rest ≠ []) :
    stringRest start done (Symbol.char '\\' :: Symbol.char 'u' :: a :: b :: d :: e :: rest) =
      stringRest start (unitSymbol u :: done) rest := by
  rw [stringRest.eq_def]
  simp only [hu]
  split <;> simp_all

/-- All other symbols but the closing quote and those that are not shown stand for themselves. -/
theorem stringRest_plain {y : Symbol} (hquote : y ≠ Symbol.char '"') (hslash : y ≠ Symbol.char '\\')
    (h : ¬ y.toNat < 32) : stringRest start done (y :: rest) = stringRest start (y :: done) rest := by
  rw [stringRest, if_neg h]
  · exact hquote
  · exact hslash

/-- The four digits of a control character are read back. -/
theorem unit?_hexDigit : ∀ n < 32,
    unit? '0' '0' (hexDigit (n / 16)) (hexDigit (n % 16)) = some n ∧ isHigh n = false ∧
      unitSymbol n = Symbol.char (Char.ofNat n) := by
  decide

/-- There are three ways to write a character: as a letter that stands for it, by its number, and as
it is. -/
theorem encodeChar_cases (c : Char) :
    (∃ d, escaped? d = some c ∧ encodeChar c = ['\\', d]) ∨
      (c.toNat < 32 ∧ encodeChar c =
        ['\\', 'u', '0', '0', hexDigit (c.toNat / 16), hexDigit (c.toNat % 16)]) ∨
      (c ≠ '"' ∧ c ≠ '\\' ∧ ¬ c.toNat < 32 ∧ encodeChar c = [c]) := by
  unfold encodeChar
  split_ifs with hquote hslash hn hr ht hf hb hcontrol
  · exact .inl ⟨'"', by rw [hquote]; rfl, rfl⟩
  · exact .inl ⟨'\\', by rw [hslash]; rfl, rfl⟩
  · exact .inl ⟨'n', by rw [hn]; rfl, rfl⟩
  · exact .inl ⟨'r', by rw [hr]; rfl, rfl⟩
  · exact .inl ⟨'t', by rw [ht]; rfl, rfl⟩
  · exact .inl ⟨'f', by rw [hf]; rfl, rfl⟩
  · exact .inl ⟨'b', by rw [hb]; rfl, rfl⟩
  · exact .inr (.inl ⟨hcontrol, rfl⟩)
  · exact .inr (.inr ⟨hquote, hslash, hcontrol, rfl⟩)

/-- **One symbol.** What is written for a symbol of a string is read as that symbol. -/
theorem stringRest_encodeSymbol (y : Symbol) (hrest : rest ≠ []) :
    stringRest start done (encodeSymbol y ++ rest) = stringRest start (y :: done) rest := by
  cases y with
  | surrogate s =>
    -- The code points of surrogates are far from those that are not shown.
    have hshown : ¬ (Symbol.surrogate s).toNat < 32 := by
      simp only [Symbol.toNat, firstSurrogate]
      omega
    exact stringRest_plain (by simp) (by simp) hshown
  | char c =>
    rw [encodeSymbol]
    rcases encodeChar_cases c with ⟨d, hd, hc⟩ | ⟨hcontrol, hc⟩ | ⟨hquote, hslash, hshown, hc⟩
    · rw [hc]
      exact stringRest_escaped hd
    · obtain ⟨hunit, hhigh, hchar⟩ := unit?_hexDigit c.toNat hcontrol
      have hread : stringRest start done _ = _ := stringRest_unicode hunit hhigh hrest
      rw [hchar, Char.ofNat_toNat] at hread
      rw [hc]
      exact hread
    · rw [hc]
      exact stringRest_plain (by simpa using hquote) (by simpa using hslash) hshown

/-- **Strings.** The text of a string is read as the string, behind the opening quote. -/
theorem stringRest_flatMap (cs : Text) :
    ∀ done, stringRest start done (cs.flatMap encodeSymbol ++ Symbol.char '"' :: rest) =
      .ok (done.reverse ++ cs, rest) := by
  induction cs with
  | nil =>
    intro done
    simp [stringRest]
  | cons c cs ih =>
    intro done
    rw [List.flatMap_cons, List.append_assoc, stringRest_encodeSymbol c (by simp), ih]
    simp

/-- The text of a string is read as the string, behind the opening quote. -/
theorem stringRest_text (start : Nat) (s rest : Text) :
    stringRest start [] (s.flatMap encodeSymbol ++ Symbol.char '"' :: rest) = .ok (s, rest) := by
  rw [stringRest_flatMap, List.reverse_nil, List.nil_append]

/-- A written string is its symbols between quotes. -/
theorem encodeString_append (s : Text) (rest : Text) :
    encodeString s ++ rest = Symbol.char '"' :: (s.flatMap encodeSymbol ++ Symbol.char '"' :: rest) := by
  simp [encodeString]

/-! ### Blanks -/

/-- A symbol that is not skipped. -/
def IsSolid (y : Symbol) : Prop :=
  ¬ (y = ' ' ∨ y = '\t' ∨ y = '\n' ∨ y = '\r')

instance (y : Symbol) : Decidable (IsSolid y) :=
  inferInstanceAs (Decidable (¬ _))

/-- In front of something solid nothing is skipped. -/
theorem skip_eq_self {y : Symbol} (hcs : cs.head? = some y) (h : IsSolid y) : skip cs = cs := by
  obtain ⟨ds, rfl⟩ := List.head?_eq_some_iff.1 hcs
  rw [skip, if_neg h]

/-- A new line is skipped with its indentation. -/
theorem skip_newLine (level : Nat) (cs : Text) : skip (newLine level ++ cs) = skip cs := by
  have hblanks : ∀ n, skip (List.replicate n (Symbol.char ' ') ++ cs) = skip cs := by
    intro n
    induction n with
    | zero => rfl
    | succ n ih => simp [List.replicate_succ, skip, ih]
  simp [newLine, skip, hblanks]

/-- A colon is not skipped. -/
theorem skip_colon (cs : Text) : skip (Symbol.char ':' :: cs) = Symbol.char ':' :: cs :=
  skip_eq_self List.head?_cons (by decide)

/-- A new line takes at least one symbol. -/
theorem one_le_length_newLine (level : Nat) : 1 ≤ (newLine level).length := by
  simp [newLine]

/-! ### Values without numbers -/

mutual
/-- There are no numbers in a value, and no object in it has two members with one key. -/
def Plain : Json → Prop
  | null | bool _ | string _ => True
  | integer _ | real _ => False
  | array vs => PlainAll vs
  | object ms => (ms.map Prod.fst).Nodup ∧ PlainMembers ms

/-- There are no numbers and no repeated keys in values. -/
def PlainAll : List Json → Prop
  | [] => True
  | v :: vs => Plain v ∧ PlainAll vs

/-- There are no numbers and no repeated keys in the values of members. -/
def PlainMembers : List (Text × Json) → Prop
  | [] => True
  | (_, v) :: ms => Plain v ∧ PlainMembers ms
end

/-- The symbols that values begin with which are not numbers. -/
def openings : Text := ['n', 't', 'f', '"', '[', '\x7b']

/-- What a written value begins with is solid. -/
theorem isSolid_of_mem_openings : ∀ c ∈ openings, IsSolid c := by
  simp [openings, IsSolid]

/-- No written value begins with a closing bracket. -/
theorem bracket_notMem_openings : Symbol.char ']' ∉ openings := by
  decide

/-- No written value begins with a byte order mark. -/
theorem byteOrderMark_notMem_openings : Symbol.char byteOrderMark ∉ openings := by
  decide

/-- A value that is not a number begins with one of these. -/
theorem exists_head?_write {v : Json} (hv : v.Plain) (level : Nat) (rest : Text) :
    ∃ c ∈ openings, (write level v ++ rest).head? = some c := by
  cases v with
  | null => exact ⟨Symbol.char 'n', by decide, rfl⟩
  | bool b =>
    cases b with
    | false => exact ⟨Symbol.char 'f', by decide, rfl⟩
    | true => exact ⟨Symbol.char 't', by decide, rfl⟩
  | integer n => exact hv.elim
  | real x => exact hv.elim
  | string s => exact ⟨Symbol.char '"', by decide, rfl⟩
  | array vs => cases vs <;> exact ⟨Symbol.char '[', by decide, rfl⟩
  | object ms => cases ms <;> exact ⟨Symbol.char '\x7b', by decide, rfl⟩

/-- Nothing is skipped in front of a value. -/
theorem skip_write {v : Json} (hv : v.Plain) (level : Nat) (rest : Text) :
    skip (write level v ++ rest) = write level v ++ rest := by
  obtain ⟨c, hc, hhead⟩ := exists_head?_write hv level rest
  exact skip_eq_self hhead (isSolid_of_mem_openings c hc)

/-- A written member is its name between quotes, a colon and its value. -/
theorem writeMember_append (k : Text) (v : Json) (level : Nat) (rest : Text) :
    writeMember level (k, v) ++ rest =
      Symbol.char '"' :: (k.flatMap encodeSymbol ++
        Symbol.char '"' :: Symbol.char ':' :: Symbol.char ' ' :: (write level v ++ rest)) := by
  rw [writeMember, List.append_assoc, encodeString_append]
  rfl

/-- A written member begins with a quote. -/
theorem head?_writeMember (m : Text × Json) (level : Nat) (rest : Text) :
    (writeMember level m ++ rest).head? = some (Symbol.char '"') := by
  obtain ⟨k, v⟩ := m
  rw [writeMember_append, List.head?_cons]

/-- Nothing is skipped in front of a member. -/
theorem skip_writeMember (m : Text × Json) (level : Nat) (rest : Text) :
    skip (writeMember level m ++ rest) = writeMember level m ++ rest :=
  skip_eq_self (head?_writeMember m level rest) (by decide)

/-! ### How values are read -/

section Rules

variable {v : Json} {k : Text} {behind : Text} {vs : List Json}
  {ms : List (Text × Json)}

/-- Behind a quote a string is read. -/
theorem value_quote (h : stringRest (cs.length + 1) [] cs = .ok (k, rest)) :
    value (fuel + 1) (Symbol.char '"' :: cs) = .ok (string k, rest) := by
  simp only [value, List.length_cons, h, bind, Except.bind, pure, Except.pure]

/-- Behind a bracket items are read, unless it is closed at once. -/
theorem value_bracket (h : skip cs = rest) (hc : rest.head? ≠ some (Symbol.char ']')) :
    value (fuel + 1) (Symbol.char '[' :: cs) = items fuel [] rest := by
  simp only [value, h]
  split
  next => exact absurd rfl hc
  next => rfl

/-- Behind a brace members are read, unless it is closed at once. -/
theorem value_brace (h : skip cs = rest) (hc : rest.head? ≠ some (Symbol.char '\x7d')) :
    value (fuel + 1) (Symbol.char '\x7b' :: cs) = members fuel [] rest := by
  simp only [value, h]
  split
  next => exact absurd rfl hc
  next => rfl

/-- An item in front of a comma is put to those before it. -/
theorem items_comma (hv : value fuel cs = .ok (v, behind)) (h : skip behind = Symbol.char ',' :: rest) :
    items (fuel + 1) vs cs = items fuel (v :: vs) (skip rest) := by
  simp only [items, hv, bind, Except.bind, h]

/-- An item in front of the closing bracket is the last. -/
theorem items_bracket (hv : value fuel cs = .ok (v, behind)) (h : skip behind = Symbol.char ']' :: rest) :
    items (fuel + 1) vs cs = .ok (array (v :: vs).reverse, rest) := by
  simp only [items, hv, bind, Except.bind, h, pure, Except.pure]

/-- A member in front of a comma is put to those before it. -/
theorem members_comma (hplain : v.Plain) (hv : value fuel (write level v ++ cs) = .ok (v, behind))
    (h : skip behind = Symbol.char ',' :: rest) :
    members (fuel + 1) ms (writeMember level (k, v) ++ cs) =
      members fuel (put k v ms) (skip rest) := by
  have hblank : skip (Symbol.char ' ' :: (write level v ++ cs)) = write level v ++ cs :=
    skip_write hplain level cs
  simp only [writeMember_append, members, stringRest_text, bind, Except.bind, skip_colon, hblank,
    hv, h]

/-- A member in front of the closing brace is the last. -/
theorem members_brace (hplain : v.Plain) (hv : value fuel (write level v ++ cs) = .ok (v, behind))
    (h : skip behind = Symbol.char '\x7d' :: rest) :
    members (fuel + 1) ms (writeMember level (k, v) ++ cs) = .ok (object (put k v ms), rest) := by
  have hblank : skip (Symbol.char ' ' :: (write level v ++ cs)) = write level v ++ cs :=
    skip_write hplain level cs
  simp only [writeMember_append, members, stringRest_text, bind, Except.bind, skip_colon, hblank,
    hv, h, pure, Except.pure]

end Rules

/-- A member with a new key comes behind all others. -/
theorem put_of_not_mem {k : Text} (v : Json) {ms : List (Text × Json)}
    (h : k ∉ ms.map Prod.fst) : put k v ms = ms ++ [(k, v)] := by
  induction ms with
  | nil => rfl
  | cons m ms ih =>
    obtain ⟨l, w⟩ := m
    rw [List.map_cons, List.mem_cons, not_or] at h
    rw [put, if_neg (Ne.symm h.1), ih h.2, List.cons_append]

/-! ### Reading values back -/

/-- Every value that is written in at most so many symbols is read back in as many steps. -/
def ReadsBack (fuel : Nat) : Prop :=
  ∀ level v rest, v.Plain → (write level v).length ≤ fuel →
    value fuel (write level v ++ rest) = .ok (v, rest)

/-- So are the items of an array, behind the bracket that opens it. -/
def ReadsItemsBack (fuel : Nat) : Prop :=
  ∀ level done v vs rest, v.Plain → PlainAll vs →
    (write (level + 1) v ++ writeItems (level + 1) vs ++ newLine level).length ≤ fuel →
      items fuel done (write (level + 1) v ++
          (writeItems (level + 1) vs ++ (newLine level ++ Symbol.char ']' :: rest))) =
        .ok (array (done.reverse ++ v :: vs), rest)

/-- So are the members of an object, behind the brace that opens it. -/
def ReadsMembersBack (fuel : Nat) : Prop :=
  ∀ level done m ms rest, PlainMembers (m :: ms) → ((done ++ m :: ms).map Prod.fst).Nodup →
    (writeMember (level + 1) m ++ writeMembers (level + 1) ms ++ newLine level).length ≤ fuel →
      members fuel done (writeMember (level + 1) m ++
          (writeMembers (level + 1) ms ++ (newLine level ++ Symbol.char '\x7d' :: rest))) =
        .ok (object (done ++ m :: ms), rest)

/-- Values are read back if what is in them is. -/
theorem readsBack_succ (hitems : ReadsItemsBack fuel) (hmembers : ReadsMembersBack fuel) :
    ReadsBack (fuel + 1) := by
  intro level v rest hv hlen
  cases v with
  | null => rfl
  | bool b => cases b <;> rfl
  | integer n => exact hv.elim
  | real x => exact hv.elim
  | string s =>
    rw [write, encodeString_append]
    exact value_quote (stringRest_text _ s rest)
  | array vs =>
    cases vs with
    | nil => rfl
    | cons v vs =>
      have htext : write level (array (v :: vs)) ++ rest = Symbol.char '[' :: (newLine (level + 1) ++
          (write (level + 1) v ++ (writeItems (level + 1) vs ++
            (newLine level ++ Symbol.char ']' :: rest)))) := by
        simp [write]
      -- The first item does not begin with the bracket that would close the array.
      obtain ⟨c, hc, hhead⟩ := exists_head?_write hv.1 (level + 1)
        (writeItems (level + 1) vs ++ (newLine level ++ Symbol.char ']' :: rest))
      have hbracket : c ≠ Symbol.char ']' := ne_of_mem_of_not_mem hc bracket_notMem_openings
      rw [htext, value_bracket ((skip_newLine ..).trans (skip_write hv.1 ..))
        (by rw [hhead]; simpa using hbracket)]
      exact hitems level [] v vs rest hv.1 hv.2 (by simp [write] at hlen ⊢; omega)
  | object ms =>
    cases ms with
    | nil => rfl
    | cons m ms =>
      have htext : write level (object (m :: ms)) ++ rest = Symbol.char '\x7b' :: (newLine (level + 1) ++
          (writeMember (level + 1) m ++ (writeMembers (level + 1) ms ++
            (newLine level ++ Symbol.char '\x7d' :: rest)))) := by
        simp [write]
      rw [htext, value_brace ((skip_newLine ..).trans (skip_writeMember ..))
        (by rw [head?_writeMember]; decide)]
      exact hmembers level [] m ms rest hv.2 hv.1 (by simp [write] at hlen ⊢; omega)

/-- Items are read back if values and further items are. -/
theorem readsItemsBack_succ (hvalue : ReadsBack fuel) (hitems : ReadsItemsBack fuel) :
    ReadsItemsBack (fuel + 1) := by
  intro level done v vs rest hv hvs hlen
  have hline := one_le_length_newLine level
  have hread := hvalue (level + 1) v
    (writeItems (level + 1) vs ++ (newLine level ++ Symbol.char ']' :: rest)) hv
    (by simp at hlen ⊢; omega)
  cases vs with
  -- The value is followed by the bracket, on a line of its own, or by a comma and the next value.
  | nil =>
    have hend : skip (writeItems (level + 1) [] ++ (newLine level ++ Symbol.char ']' :: rest)) =
        Symbol.char ']' :: rest :=
      skip_newLine level (Symbol.char ']' :: rest)
    rw [items_bracket hread hend, List.reverse_cons]
  | cons w vs =>
    have htext : writeItems (level + 1) (w :: vs) ++ (newLine level ++ Symbol.char ']' :: rest) =
        Symbol.char ',' :: (newLine (level + 1) ++ (write (level + 1) w ++
          (writeItems (level + 1) vs ++ (newLine level ++ Symbol.char ']' :: rest)))) := by
      simp [writeItems]
    rw [htext] at hread ⊢
    rw [items_comma hread rfl, skip_newLine, skip_write hvs.1,
      hitems level (v :: done) w vs rest hvs.1 hvs.2 (by simp [writeItems] at hlen ⊢; omega),
      List.reverse_cons, List.append_assoc, List.singleton_append]

/-- Members are read back if values and further members are. -/
theorem readsMembersBack_succ (hvalue : ReadsBack fuel) (hmembers : ReadsMembersBack fuel) :
    ReadsMembersBack (fuel + 1) := by
  rintro level done ⟨k, v⟩ ms rest ⟨hv, hms⟩ hkeys hlen
  have hline := one_le_length_newLine level
  have hread := hvalue (level + 1) v
    (writeMembers (level + 1) ms ++ (newLine level ++ Symbol.char '\x7d' :: rest)) hv
    (by simp [writeMember] at hlen ⊢; omega)
  -- The key is none of those in front of it, so its member is put behind them.
  have hnew : k ∉ done.map Prod.fst := by
    rw [List.map_append, List.map_cons] at hkeys
    exact fun hk => List.disjoint_of_nodup_append hkeys hk List.mem_cons_self
  cases ms with
  | nil =>
    have hend : skip (writeMembers (level + 1) [] ++ (newLine level ++ Symbol.char '\x7d' :: rest)) =
        Symbol.char '\x7d' :: rest :=
      skip_newLine level (Symbol.char '\x7d' :: rest)
    rw [members_brace hv hread hend, put_of_not_mem v hnew]
  | cons m ms =>
    have htext : writeMembers (level + 1) (m :: ms) ++ (newLine level ++ Symbol.char '\x7d' :: rest) =
        Symbol.char ',' :: (newLine (level + 1) ++ (writeMember (level + 1) m ++
          (writeMembers (level + 1) ms ++ (newLine level ++ Symbol.char '\x7d' :: rest)))) := by
      simp [writeMembers]
    rw [htext] at hread ⊢
    rw [members_comma hv hread rfl, skip_newLine, skip_writeMember, put_of_not_mem v hnew,
      hmembers level (done ++ [(k, v)]) m ms rest hms (by simpa using hkeys)
        (by simp [writeMembers, writeMember] at hlen ⊢; omega),
      List.append_assoc, List.singleton_append]

/-- **All values.** However many steps there are, values, items and members are read back that are
written in no more symbols. -/
theorem readsBack_all (fuel : Nat) :
    ReadsBack fuel ∧ ReadsItemsBack fuel ∧ ReadsMembersBack fuel := by
  induction fuel with
  | zero =>
    -- Nothing is written in no symbols.
    refine ⟨fun level v rest hv hlen => ?_, fun level done v vs rest _ _ hlen => ?_,
      fun level done m ms rest _ _ hlen => ?_⟩
    · obtain ⟨c, -, hhead⟩ := exists_head?_write hv level []
      rw [List.append_nil, List.eq_nil_of_length_eq_zero (Nat.le_zero.1 hlen)] at hhead
      cases hhead
    · have hline := one_le_length_newLine level
      rw [List.length_append] at hlen
      omega
    · have hline := one_le_length_newLine level
      rw [List.length_append] at hlen
      omega
  | succ fuel ih =>
    obtain ⟨hvalue, hitems, hmembers⟩ := ih
    exact ⟨readsBack_succ hitems hmembers, readsItemsBack_succ hvalue hitems,
      readsMembersBack_succ hvalue hmembers⟩

/-- **Documents.** A value without numbers and repeated keys is read back from its text. -/
theorem parse_render {v : Json} (hv : v.Plain) : parse v.render = .ok v := by
  obtain ⟨c, hc, hhead⟩ := exists_head?_write hv 0 []
  have hskip := skip_write hv 0 []
  have hread := (readsBack_all (2 * (write 0 v).length + 2)).1 0 v [] hv (by omega)
  rw [List.append_nil] at hhead hskip hread
  have hmark : (write 0 v).head? ≠ some (Symbol.char byteOrderMark) := by
    rw [hhead]
    exact fun h => byteOrderMark_notMem_openings (Option.some.inj h ▸ hc)
  rw [parse, render, document, if_neg hmark, hskip, hread]
  rfl

end RenderTree.Json
