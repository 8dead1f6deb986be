import ExportAtlas.Json.Reader
import ExportAtlas.Proofs.KeyedList
/-!
# Names of an object

An object that is read has each name once (`nodup_names_of_read?`), whatever
the text repeats. Objects come from the reader's own steps and from no token
(`isPlain_of_mem_tokensFrom`), and each step keeps the names of all objects
that are open distinct (`OnceNamed.step`).
-/

namespace ExportAtlas

namespace Json

variable {s : List Char} {t : Token} {tokens : List Token} {mode : Mode}
  {state state' : List Frame × Awaited} {content : String} {members : List (String × Json)}

/-! ## Tokens -/

/-- A token that is no object of its own. -/
def Token.IsPlain (t : Token) : Prop := ∀ v, t = .scalar v → v.object? = none

theorem isPlain_string (text : String) : (Token.string text).IsPlain := nofun

theorem isPlain_of_punctuation? {c : Char} (h : punctuation? c = some t) : t.IsPlain := by
  rintro v rfl
  rw [punctuation?.eq_def] at h
  split at h <;> cases h

theorem isPlain_of_scalar? (h : scalar? s = some t) : t.IsPlain := by
  rintro v rfl
  simp only [scalar?] at h
  split at h
  · obtain rfl := Token.scalar.inj (Option.some.inj h)
    rfl
  split at h
  · obtain rfl := Token.scalar.inj (Option.some.inj h)
    rfl
  split at h
  · obtain rfl := Token.scalar.inj (Option.some.inj h)
    rfl
  · obtain ⟨n, -, hn⟩ := Option.map_eq_some_iff.mp h
    obtain rfl := Token.scalar.inj hn
    rfl

/-- **No token of a text is an object.** -/
theorem isPlain_of_mem_tokensFrom (h : tokensFrom mode s = some tokens) :
    ∀ t ∈ tokens, t.IsPlain := by
  fun_induction tokensFrom mode s generalizing tokens with
  | case1 =>
    obtain rfl := Option.some.inj h
    exact nofun
  | case4 c rest _ _ t ht ih =>
    obtain ⟨more, hmore, rfl⟩ := Option.map_eq_some_iff.mp h
    exact List.forall_mem_cons.mpr ⟨isPlain_of_punctuation? ht, ih hmore⟩
  | case6 run =>
    obtain ⟨t, ht, rfl⟩ := Option.map_eq_some_iff.mp h
    exact List.forall_mem_singleton.mpr (isPlain_of_scalar? ht)
  | case7 run c rest _ ih =>
    obtain ⟨t, ht, h⟩ := Option.bind_eq_some_iff.mp h
    obtain ⟨more, hmore, rfl⟩ := Option.map_eq_some_iff.mp h
    exact List.forall_mem_cons.mpr ⟨isPlain_of_scalar? ht, ih hmore⟩
  | case8 run c rest _ t' ht' ih =>
    obtain ⟨t, ht, h⟩ := Option.bind_eq_some_iff.mp h
    obtain ⟨more, hmore, rfl⟩ := Option.map_eq_some_iff.mp h
    exact List.forall_mem_cons.mpr
      ⟨isPlain_of_scalar? ht, List.forall_mem_cons.mpr ⟨isPlain_of_punctuation? ht', ih hmore⟩⟩
  | case12 run rest ih =>
    obtain ⟨more, hmore, rfl⟩ := Option.map_eq_some_iff.mp h
    exact List.forall_mem_cons.mpr ⟨isPlain_string _, ih hmore⟩
  | case2 | case3 | case5 | case10 | case15 | case19 | case21 | case23 =>
    -- one character more, and no token yet
    rename_i ih
    exact ih h
  | case9 | case11 | case13 | case14 | case16 | case17 | case18 | case20 | case22 => cases h

/-! ## Steps -/

/-- Members of which no two share a name. -/
def Distinct (members : List (String × Json)) : Prop := (members.map Prod.fst).Nodup

/-- An open object has each name once. -/
def Frame.IsDistinct : Frame → Prop
  | .array _ => True
  | .object members _ => Distinct members

/-- So has an object that is being read, or has been. -/
def Awaited.IsDistinct : Awaited → Prop
  | .value _ => True
  | .name members _ => Distinct members
  | .colon members _ => Distinct members
  | .after v => ∀ members, v.object? = some members → Distinct members

/-- The reader holds no object with a name twice. -/
structure OnceNamed (state : List Frame × Awaited) : Prop where
  stack : ∀ f ∈ state.1, f.IsDistinct
  awaited : state.2.IsDistinct

/-- **One token more** repeats no name: a name that is there keeps its place. -/
theorem OnceNamed.step (hstate : OnceNamed state) (ht : t.IsPlain)
    (h : Json.step state t = some state') : OnceNamed state' := by
  obtain ⟨hstack, hawaited⟩ := hstate
  rw [Json.step.eq_def] at h
  split at h
  -- a value
  case h_1 =>
    obtain rfl := Option.some.inj h
    exact ⟨hstack, fun _ hmembers => nomatch hmembers⟩
  case h_2 =>
    obtain rfl := Option.some.inj h
    refine ⟨hstack, fun members hmembers => ?_⟩
    rw [ht _ rfl] at hmembers
    cases hmembers
  -- a container is opened
  case h_3 =>
    split at h
    · obtain rfl := Option.some.inj h
      exact ⟨List.forall_mem_cons.mpr ⟨trivial, hstack⟩, trivial⟩
    · cases h
  case h_4 =>
    split at h
    · obtain rfl := Option.some.inj h
      exact ⟨List.forall_mem_cons.mpr ⟨List.nodup_nil, hstack⟩, List.nodup_nil⟩
    · cases h
  -- a container without entries is closed
  case h_5 =>
    obtain rfl := Option.some.inj h
    exact ⟨(List.forall_mem_cons.mp hstack).2, fun _ hmembers => nomatch hmembers⟩
  case h_6 =>
    obtain rfl := Option.some.inj h
    refine ⟨(List.forall_mem_cons.mp hstack).2, fun members hmembers => ?_⟩
    obtain rfl := Option.some.inj hmembers
    exact hawaited
  -- a name, and the colon behind it
  case h_7 =>
    obtain rfl := Option.some.inj h
    exact ⟨hstack, hawaited⟩
  case h_8 =>
    obtain rfl := Option.some.inj h
    exact ⟨List.forall_mem_cons.mpr ⟨hawaited, (List.forall_mem_cons.mp hstack).2⟩, trivial⟩
  -- the end of an item
  case h_9 =>
    obtain rfl := Option.some.inj h
    exact ⟨List.forall_mem_cons.mpr ⟨trivial, (List.forall_mem_cons.mp hstack).2⟩, trivial⟩
  case h_10 =>
    obtain rfl := Option.some.inj h
    exact ⟨(List.forall_mem_cons.mp hstack).2, fun _ hmembers => nomatch hmembers⟩
  -- the end of a member, which is put to the others
  case h_11 =>
    obtain rfl := Option.some.inj h
    exact ⟨hstack, KeyedList.nodup_map_fst_put (List.forall_mem_cons.mp hstack).1⟩
  case h_12 =>
    obtain rfl := Option.some.inj h
    refine ⟨(List.forall_mem_cons.mp hstack).2, fun members hmembers => ?_⟩
    obtain rfl := Option.some.inj hmembers
    exact KeyedList.nodup_map_fst_put (List.forall_mem_cons.mp hstack).1
  case h_13 => cases h

theorem OnceNamed.run (hstate : OnceNamed state) (htokens : ∀ t ∈ tokens, t.IsPlain)
    (h : tokens.foldlM Json.step state = some state') : OnceNamed state' := by
  induction tokens generalizing state with
  | nil =>
    obtain rfl := Option.some.inj h
    exact hstate
  | cons t tokens ih =>
    rw [List.forall_mem_cons] at htokens
    rw [List.foldlM_cons] at h
    obtain ⟨next, hnext, h⟩ := Option.bind_eq_some_iff.mp h
    exact ih (hstate.step htokens.1 hnext) htokens.2 h

/-- **An object that is read has each name once.** -/
theorem nodup_names_of_read? (h : read? content = some (.object members)) :
    (members.map Prod.fst).Nodup := by
  obtain ⟨tokens, htokens, h⟩ := Option.bind_eq_some_iff.mp h
  have hstart : OnceNamed ([], .value false) := ⟨nofun, trivial⟩
  rw [ofTokens?] at h
  split at h
  · rename_i v hrun
    obtain rfl := Option.some.inj h
    exact (hstart.run (isPlain_of_mem_tokensFrom htokens) hrun).awaited members rfl
  · cases h

end Json

end ExportAtlas
