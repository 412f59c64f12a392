import EventPipeline.Proofs.Json.RoundTrip
import EventPipeline.Proofs.Text.Lines
import EventPipeline.Proofs.Text.Visible

/-!
# What JSON text is made of

JSON text without line breaks between items is made of printable ASCII characters and of the symbols of
the texts in the value, except that control characters are always escaped (`drawn_write`). So it stands on
one line whatever the texts hold, the line ends of a file do no harm to it (`readOrFail_write`), and it has a
UTF-8 form if the texts have one. It neither starts nor ends with a blank (`framed_writeAt`).
-/

namespace EventPipeline

/-! ### The symbols of a value -/

/-- The symbols of a key. -/
def Key.symbols : Key → Text
  | .name t => t
  | .surplus => []

namespace Value

mutual

/-- The symbols of all texts and names in a value. -/
def symbols : Value → Text
  | .text t => t
  | .array items => symbolsOfItems items
  | .object fields => symbolsOfFields fields
  | _ => []

/-- The symbols of all texts and names in the items of an array. -/
def symbolsOfItems : List Value → Text
  | [] => []
  | v :: vs => v.symbols ++ symbolsOfItems vs

/-- The symbols of all texts and names in the fields of an object. -/
def symbolsOfFields : List (Key × Value) → Text
  | [] => []
  | (k, v) :: fs => k.symbols ++ v.symbols ++ symbolsOfFields fs

end

/-- The symbols of an object are those of its names and of what stands under them. -/
theorem mem_symbolsOfFields {s : Symbol} {fs : List (Key × Value)} :
    s ∈ symbolsOfFields fs ↔ ∃ f ∈ fs, s ∈ f.1.symbols ∨ s ∈ f.2.symbols := by
  induction fs with
  | nil => simp [symbolsOfFields]
  | cons f fs ih => simp [symbolsOfFields, ih, or_assoc]

end Value

namespace Json

open EventPipeline.Symbol (isVisible isVisible_of_isDigit)

/-! ### Numbers -/

theorem visible_digits {cs : List Char} (h : ∀ c ∈ cs, c.isDigit = true) : (textOf cs).all isVisible = true := by
  rw [textOf, List.all_map, List.all_eq_true]
  intro c hc
  exact isVisible_of_isDigit (h c hc)

theorem visible_parts {w f cs : List Char} {x : Int} (hp : Binary64.Parts w f x cs)
    (hw : ∀ c ∈ w, c.isDigit = true) (hf : ∀ c ∈ f, c.isDigit = true) : (textOf cs).all isVisible = true := by
  have hw := visible_digits hw
  have hf := visible_digits hf
  simp only [textOf, List.all_map] at hw hf ⊢
  cases hp with
  | plain => simp [hw, hf, isVisible]
  | scientific _ power hd =>
    have hd := visible_digits hd
    simp only [textOf, List.all_map] at hd
    simp only [Binary64.fractionPart, Binary64.exponentPart]
    split_ifs <;> simp [hw, hf, hd, isVisible]

/-- A number has no blanks in it. -/
theorem visible_writeNumber (n : Number) : (writeNumber n).all isVisible = true := by
  have hnat : ∀ k : ℕ, (Text.ofNat k).all isVisible = true := fun k => visible_digits fun _ => isDigit_of_mem_toDigits
  rcases n with (k | k) | (_ | s | ⟨s, r⟩)
  · exact hnat k
  · exact hnat (k + 1)
  · decide
  · cases s <;> decide
  · obtain ⟨w, f, x, hp, hw, hf, -⟩ := Binary64.parts_magnitude s r
    have hparts : ((Binary64.magnitudeChars r).map Symbol.char).all isVisible = true := visible_parts hp hw.digits hf
    rw [writeNumber, Binary64.toText]
    · rw [List.all_append, hparts, Bool.and_true]
      cases s <;> decide
    · intro h
      cases h
    · intro b h
      cases h

/-! ### Texts drawn from symbols -/

/-- A printable ASCII character. -/
def isPlain (s : Symbol) : Bool := s == .char ' ' || isVisible s

/-- A text is made of printable ASCII characters and of some of the given symbols, none of them a
control character. -/
def DrawnFrom (source t : Text) : Prop := ∀ s ∈ t, isPlain s = true ∨ s ∈ source ∧ 0x20 ≤ s.code

theorem code_of_isPlain {s : Symbol} (h : isPlain s = true) : 0x20 ≤ s.code := by
  rw [isPlain, Bool.or_eq_true, beq_iff_eq] at h
  rcases h with rfl | h
  · decide
  · cases s with
    | char c =>
      simp only [isVisible, Bool.and_eq_true, decide_eq_true_eq] at h
      exact Nat.le_of_succ_le h.1
    | surrogate n => cases h

namespace DrawnFrom

variable {source t u : Text}

theorem plain (h : t.all isPlain = true) : DrawnFrom source t := fun s hs => .inl (List.all_eq_true.1 h s hs)

theorem append (ht : DrawnFrom source t) (hu : DrawnFrom source u) : DrawnFrom source (t ++ u) := fun s hs =>
  (List.mem_append.1 hs).elim (ht s) (hu s)

theorem mono {more : Text} (h : DrawnFrom source t) (hsub : ∀ s ∈ source, s ∈ more) : DrawnFrom more t := fun s hs =>
  (h s hs).imp_right fun hsource => ⟨hsub s hsource.1, hsource.2⟩

/-- No control character is drawn. -/
theorem code_le (h : DrawnFrom source t) : ∀ s ∈ t, 0x20 ≤ s.code := fun s hs =>
  (h s hs).elim code_of_isPlain And.right

theorem isEncodable (h : DrawnFrom source t) (hs : source.isEncodable = true) : t.isEncodable = true := by
  rw [Text.isEncodable, List.all_eq_true] at hs ⊢
  intro s hst
  rcases h s hst with hplain | ⟨hsource, -⟩
  · cases s with
    | char c => rfl
    | surrogate n => cases hplain
  · exact hs s hsource

end DrawnFrom

/-! ### Texts -/

theorem drawn_escapeSymbol (s : Symbol) : DrawnFrom [s] (escapeSymbol s) := by
  unfold escapeSymbol
  split
  iterate 7 exact .plain (by decide)
  · rename_i c _ _ _ _ _ _ _
    split_ifs with hc
    · generalize c.toNat = n at hc
      refine .plain ?_
      interval_cases n <;> decide
    · exact List.forall_mem_singleton.2 (.inr ⟨List.mem_singleton_self _, Nat.le_of_not_lt hc⟩)
  · rename_i n
    refine List.forall_mem_singleton.2 (.inr ⟨List.mem_singleton_self _, ?_⟩)
    rw [Symbol.code]
    omega

theorem drawn_writeText (t : Text) : DrawnFrom t (writeText t) := by
  have hbody : DrawnFrom t (t.flatMap escapeSymbol) := by
    intro r hr
    obtain ⟨s, hs, hr⟩ := List.mem_flatMap.1 hr
    exact (drawn_escapeSymbol s).mono (List.forall_mem_singleton.2 hs) r hr
  exact ((DrawnFrom.plain (by decide)).append hbody : DrawnFrom t ([.char '"'] ++ _)).append (.plain (by decide))

theorem drawn_writeNumber (source : Text) (n : Number) : DrawnFrom source (writeNumber n) := by
  intro s hs
  refine .inl ?_
  rw [isPlain, List.all_eq_true.1 (visible_writeNumber n) s hs, Bool.or_true]

theorem drawn_writeKey (k : Key) : DrawnFrom k.symbols (writeKey k) := by
  cases k with
  | name t => exact drawn_writeText t
  | surplus => exact .plain (by decide)

/-! ### Values -/

theorem drawn_spaces {source : Text} {c : Char} (hc : isPlain (.char c) = true) (n : Nat) :
    DrawnFrom source (.char c :: List.replicate n (.char ' ')) := by
  refine .plain ?_
  rw [List.all_cons, hc, Bool.true_and, List.all_eq_true]
  intro s hs
  rw [List.eq_of_mem_replicate hs]
  rfl

variable {style : Style}

theorem Style.Legible.drawn_separator (hs : style.Legible) (source : Text) : DrawnFrom source style.separator := by
  obtain ⟨n, h⟩ := hs.separator
  exact h ▸ drawn_spaces rfl n

theorem Style.Legible.drawn_colon (hs : style.Legible) (source : Text) : DrawnFrom source style.colon := by
  obtain ⟨n, h⟩ := hs.colon
  exact h ▸ drawn_spaces rfl n

theorem drawn_lineBreak (hi : style.indent = none) (source : Text) (depth : Nat) :
    DrawnFrom source (style.lineBreak depth) := by
  rw [Style.lineBreak, hi]
  exact .plain rfl

mutual

/-- The symbols of a value's text are plain or stand in one of its texts. -/
theorem drawn_writeAt (hs : style.Legible) (hi : style.indent = none) (depth : Nat) :
    ∀ v, DrawnFrom v.symbols (writeAt style depth v)
  | .null | .bool true | .bool false | .array [] | .object [] => .plain (by rw [writeAt]; decide)
  | .number n => drawn_writeNumber _ n
  | .text t => drawn_writeText t
  | .array (v :: vs) => by
    have hv := (drawn_writeAt hs hi (depth + 1) v).mono fun _ h => List.mem_append_left (Value.symbolsOfItems vs) h
    have hvs := (drawn_writeItems hs hi (depth + 1) vs).mono fun _ h => List.mem_append_right v.symbols h
    have hbreak := drawn_lineBreak hi (v.symbols ++ Value.symbolsOfItems vs)
    exact (((((DrawnFrom.plain (by decide)).append (hbreak _)).append hv).append hvs).append (hbreak _)).append
      (.plain (by decide))
  | .object ((k, v) :: fs) => by
    have hk := (drawn_writeKey k).mono fun _ h =>
      List.mem_append_left (Value.symbolsOfFields fs) (List.mem_append_left v.symbols h)
    have hv := (drawn_writeAt hs hi (depth + 1) v).mono fun _ h =>
      List.mem_append_left (Value.symbolsOfFields fs) (List.mem_append_right k.symbols h)
    have hfs := (drawn_writeFields hs hi (depth + 1) fs).mono fun _ h => List.mem_append_right (k.symbols ++ v.symbols) h
    have hbreak := drawn_lineBreak hi (k.symbols ++ v.symbols ++ Value.symbolsOfFields fs)
    exact (((((((DrawnFrom.plain (by decide)).append (hbreak _)).append hk).append (hs.drawn_colon _)).append hv).append
      hfs).append (hbreak _)).append (.plain (by decide))

theorem drawn_writeItems (hs : style.Legible) (hi : style.indent = none) (depth : Nat) :
    ∀ vs, DrawnFrom (Value.symbolsOfItems vs) (writeItems style depth vs)
  | [] => .plain rfl
  | v :: vs => by
    have hv := (drawn_writeAt hs hi depth v).mono fun _ h => List.mem_append_left (Value.symbolsOfItems vs) h
    have hvs := (drawn_writeItems hs hi depth vs).mono fun _ h => List.mem_append_right v.symbols h
    exact (((hs.drawn_separator _).append (drawn_lineBreak hi _ _)).append hv).append hvs

theorem drawn_writeFields (hs : style.Legible) (hi : style.indent = none) (depth : Nat) :
    ∀ fs, DrawnFrom (Value.symbolsOfFields fs) (writeFields style depth fs)
  | [] => .plain rfl
  | (k, v) :: fs => by
    have hk := (drawn_writeKey k).mono fun _ h =>
      List.mem_append_left (Value.symbolsOfFields fs) (List.mem_append_left v.symbols h)
    have hv := (drawn_writeAt hs hi depth v).mono fun _ h =>
      List.mem_append_left (Value.symbolsOfFields fs) (List.mem_append_right k.symbols h)
    have hfs := (drawn_writeFields hs hi depth fs).mono fun _ h => List.mem_append_right (k.symbols ++ v.symbols) h
    exact (((((hs.drawn_separator _).append (drawn_lineBreak hi _ _)).append hk).append (hs.drawn_colon _)).append
      hv).append hfs

end

/-- **JSON text on one line is drawn from the texts of the value.** -/
theorem drawn_write (v : Value) : DrawnFrom v.symbols (write .spaced v) := drawn_writeAt legible_spaced rfl 0 v

/-- JSON text stands on one line, whatever the texts of the value hold. -/
theorem onOneLine_write (v : Value) : Text.OnOneLine (write .spaced v) := by
  have hcode := (drawn_write v).code_le
  constructor
  · intro h
    exact absurd (hcode _ h) (by decide)
  · intro h
    exact absurd (hcode _ h) (by decide)

/-- An array of values that was written to a file is read from it again. -/
theorem readOrFail_write {batch : List Value} (h : ∀ v ∈ batch, v.isJson = true) :
    readOrFail (Text.foldLineEnds (write .spaced (.array batch))) = .ok (.array batch) := by
  have hj : (Value.array batch).isJson = true := by
    rw [Value.isJson]
    exact Value.areJson_iff.2 h
  rw [Text.foldLineEnds_of_notMem (onOneLine_write _).2, readOrFail, read_write legible_spaced hj]
  rfl

/-! ### Where JSON text starts and ends -/

/-- A text starts and ends with something that can be seen. -/
structure Framed (t : Text) : Prop where
  /-- Its first symbol. -/
  first : ∃ s u, t = s :: u ∧ isVisible s = true
  /-- Its last symbol. -/
  last : ∃ u s, t = u ++ [s] ∧ isVisible s = true

theorem Framed.of_visible {t : Text} (hne : t ≠ []) (h : t.all isVisible = true) : Framed t := by
  rw [List.all_eq_true] at h
  constructor
  · obtain ⟨s, u, rfl⟩ := List.exists_cons_of_ne_nil hne
    exact ⟨s, u, rfl, h s List.mem_cons_self⟩
  · exact ⟨t.dropLast, t.getLast hne, (List.dropLast_append_getLast hne).symm, h _ (List.getLast_mem hne)⟩

/-- JSON text starts and ends with something that can be seen. -/
theorem framed_writeAt (style : Style) (depth : Nat) (v : Value) : Framed (writeAt style depth v) := by
  cases v with
  | null => exact Framed.of_visible (List.cons_ne_nil _ _) rfl
  | bool b => cases b <;> exact Framed.of_visible (List.cons_ne_nil _ _) rfl
  | number n =>
    refine Framed.of_visible ?_ (visible_writeNumber n)
    obtain ⟨c, t, h, -⟩ := exists_cons_writeNumber n
    rw [writeAt, h]
    exact List.cons_ne_nil _ _
  | text t => exact ⟨⟨.char '"', _, rfl, rfl⟩, ⟨_, .char '"', rfl, rfl⟩⟩
  | array items =>
    cases items with
    | nil => exact Framed.of_visible (List.cons_ne_nil _ _) rfl
    | cons v vs =>
      rw [writeAt]
      exact ⟨⟨.char '[', _, rfl, rfl⟩, ⟨_, .char ']', rfl, rfl⟩⟩
  | object fields =>
    rcases fields with _ | ⟨⟨k, v⟩, fs⟩
    · exact Framed.of_visible (List.cons_ne_nil _ _) rfl
    · rw [writeAt]
      exact ⟨⟨.char '\x7b', _, rfl, rfl⟩, ⟨_, .char '\x7d', rfl, rfl⟩⟩

end Json

end EventPipeline
