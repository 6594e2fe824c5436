import ProxySet.Redsocks.HttpCore

/-!
`digest_authentication_encode` and its scanner `extract_param` as they walk through
the block of memory that holds the stored challenge.  A pointer is the part of the
block from there to its end; a read behind the end of the block gives `none`.
-/

namespace ProxySet

/-! ### The scanner -/

def between (first last : Bytes) : Bytes :=
  first.take (first.length - last.length)

def inName (separator byte : UInt8) : Bool :=
  !isspace byte && byte != 61 && byte != separator

/-- `extract_param` behind the `=`: the value and the text behind the parameter.  It is `none`
where a read goes behind the block and `some none` where 0 is returned. -/
def extractValueAt (source : Bytes) (separator : UInt8) : Option (Option (Bytes × Bytes)) := do
  let start ← advance isspace source
  let opening ← start.head?
  if opening = 34 then
    let closing ← advance (fun byte => byte != 0 && byte ≠ 34) start.tail
    let quote ← closing.head?
    if quote = 0 then return none
    let blank ← advance isspace closing.tail
    let stop ← advance (fun byte => byte != 0 && byte ≠ separator) blank
    let last ← stop.head?
    if last = separator then return some (between start.tail closing, stop.tail)
    if last ≠ 0 then return none
    return some (between start.tail closing, stop)
  else
    let stop ← advance (fun byte => byte != 0 && byte ≠ separator) start
    let last ← stop.head?
    return some ((between start stop).rdropWhile isspace,
      if last = separator then stop.tail else stop)

def extractParamAt (source : Bytes) (separator : UInt8) :
    Option (Option ((Bytes × Bytes) × Bytes)) := do
  let start ← advance isspace source
  let first ← start.head?
  if first = 0 then return none
  let nameEnd ← advance (fun byte => byte != 0 && inName separator byte) start
  let name := between start nameEnd
  if name.isEmpty then return none
  let behind ← advance isspace nameEnd
  let mark ← behind.head?
  if mark = separator then return some ((name, []), behind.tail)
  if mark = 0 then return some ((name, []), behind)
  if mark ≠ 61 then return none
  let found ← extractValueAt behind.tail separator
  return found.map fun (value, rest) => ((name, value), rest)

def digestParamsAt : Nat → Bytes → DigestParams → Option DigestParams
  | 0, _, _ => none
  | fuel + 1, line, params =>
      (extractParamAt line 44).bind fun
        | none => some params
        | some ((name, value), rest) => digestParamsAt fuel rest (params.set name value)

section Encode

variable (hash : Bytes → Bytes) (user passwd method path : Bytes) (count : Nat) (cnonce : Bytes)

/-- The value of `response`, with `md5_init` to `dump_hash` as the function `hash`. -/
def responseBy (realm nonce : Bytes) (qop : Option Bytes) : Bytes :=
  let a1 := hash (user ++ colon ++ realm ++ colon ++ passwd)
  let a2 := hash (method ++ colon ++ path)
  let middle := match qop with
    | some qop => hex8 count ++ colon ++ cnonce ++ colon ++ qop ++ colon
    | none => []
  hash (a1 ++ colon ++ nonce ++ colon ++ middle ++ a2)

def encodeParams (params : DigestParams) : Option Bytes :=
  match params.realm, params.nonce with
  | some realm, some nonce =>
      if params.qop.any fun qop => !strncasecmpEq qop (ascii "auth") 5 then none
      else
        let response := responseBy hash user passwd method path count cnonce realm nonce params.qop
        let fields := ascii "username=" ++ quoted user ++ ascii ", realm=" ++ quoted realm ++
          ascii ", nonce=" ++ quoted nonce ++ ascii ", uri=" ++ quoted path ++
          ascii ", response=" ++ quoted response
        let counted := match params.qop with
          | some qop => ascii ", qop=" ++ qop ++ ascii ", nc=" ++ hex8 count ++
              ascii ", cnonce=" ++ quoted cnonce
          | none => []
        let tail := match params.opaqueText with
          | some value => ascii ", opaque=" ++ quoted value
          | none => []
        some (fields ++ counted ++ tail)
  | _, _ => none

def digestAuthenticationEncodeAt (line : Bytes) : Option (Option Bytes) :=
  (digestParamsAt (line.length + 1) line
    { realm := none, opaqueText := none, nonce := none, qop := none }).map
    (encodeParams hash user passwd method path count cnonce)

theorem encode_eq_encodeParams (line : Bytes) :
    digestAuthenticationEncode line user passwd method path count cnonce =
      encodeParams md5Hex user passwd method path count cnonce (digestParams line.length line
        { realm := none, opaqueText := none, nonce := none, qop := none }) :=
  rfl

end Encode

/-! ### Where a terminated text is scanned -/

section Terminated

variable {text : Bytes} {separator : UInt8}

theorem advance_isspace : advance isspace (text ++ [0]) = some (text.dropWhile isspace ++ [0]) :=
  advance_terminated [] (by decide)

theorem dropWhile_nulFree {more : UInt8 → Bool} (nulFree : 0 ∉ text) :
    (text.dropWhile fun byte => byte != 0 && more byte) = text.dropWhile more := by
  induction text with
  | nil => rfl
  | cons byte rest ih =>
      simp only [List.mem_cons, not_or] at nulFree
      have nonzero : (byte != 0) = true := by simpa using Ne.symm nulFree.1
      rw [List.dropWhile_cons, List.dropWhile_cons, nonzero, Bool.true_and, ih nulFree.2]

theorem advance_before {more : UInt8 → Bool} (nulFree : 0 ∉ text) :
    advance (fun byte => byte != 0 && more byte) (text ++ [0]) =
      some (text.dropWhile more ++ [0]) := by
  rw [advance_terminated [] (by rfl), dropWhile_nulFree nulFree]

theorem between_dropWhile {more : UInt8 → Bool} :
    between (text ++ [0]) (text.dropWhile more ++ [0]) = text.takeWhile more := by
  have length : (text.takeWhile more).length + (text.dropWhile more).length = text.length := by
    rw [← List.length_append, List.takeWhile_append_dropWhile]
  have count : (text ++ [0]).length - (text.dropWhile more ++ [0]).length =
      (text.takeWhile more).length := by
    simp only [List.length_append]
    omega
  have split : text ++ [0] = text.takeWhile more ++ (text.dropWhile more ++ [0]) := by
    rw [← List.append_assoc, List.takeWhile_append_dropWhile]
  rw [between, count, split, List.take_left]

theorem nulFree_dropWhile {more : UInt8 → Bool} (nulFree : 0 ∉ text) :
    0 ∉ text.dropWhile more :=
  fun member => nulFree ((List.dropWhile_suffix more).subset member)

def extractValue (text : Bytes) (separator : UInt8) : Option (Bytes × Bytes) :=
  match text.dropWhile isspace with
  | 34 :: quoted =>
      match quoted.dropWhile (· ≠ 34) with
      | [] => none
      | _ :: closed =>
          some (quoted.takeWhile (· ≠ 34),
            ((closed.dropWhile isspace).dropWhile (· ≠ separator)).drop 1)
  | plain =>
      some ((plain.takeWhile (· ≠ separator)).rdropWhile isspace,
        (plain.dropWhile (· ≠ separator)).drop 1)

theorem extractParam_eq (text : Bytes) (separator : UInt8) :
    extractParam text separator =
      if ((text.dropWhile isspace).takeWhile (inName separator)).isEmpty then none
      else match ((text.dropWhile isspace).dropWhile (inName separator)).dropWhile isspace with
        | [] => some (((text.dropWhile isspace).takeWhile (inName separator), []), [])
        | mark :: behind =>
            if mark = separator then
              some (((text.dropWhile isspace).takeWhile (inName separator), []), behind)
            else if mark ≠ 61 then none
            else (extractValue behind separator).map fun found =>
              (((text.dropWhile isspace).takeWhile (inName separator), found.1), found.2) := by
  have same : (fun byte => !isspace byte && byte != 61 && byte != separator) =
      inName separator := rfl
  simp only [extractParam, same]
  generalize (text.dropWhile isspace).takeWhile (inName separator) = name
  generalize ((text.dropWhile isspace).dropWhile (inName separator)).dropWhile isspace = marked
  by_cases empty : name.isEmpty = true
  · rw [if_pos empty, if_pos empty]
  · rw [if_neg empty, if_neg empty]
    cases marked with
    | nil => rfl
    | cons mark behind =>
        dsimp only [extractValue]
        generalize behind.dropWhile isspace = value
        by_cases separated : mark = separator
        · rw [if_pos separated, if_pos separated]
        · rw [if_neg separated, if_neg separated]
          by_cases wrong : mark ≠ 61
          · rw [if_pos wrong, if_pos wrong]
          · rw [if_neg wrong, if_neg wrong]
            cases value with
            | nil => rfl
            | cons first quoted =>
                by_cases quote : first = 34
                · subst quote
                  cases closing : quoted.dropWhile (· ≠ 34) with
                  | nil => simp only [closing, Option.map_none]
                  | cons _ closed => simp only [closing, Option.map_some]
                · simp [quote]

theorem dropWhile_separator (text : Bytes) (separator : UInt8) :
    text.dropWhile (· ≠ separator) = [] ∨
      ∃ rest, text.dropWhile (· ≠ separator) = separator :: rest := by
  cases found : text.dropWhile (· ≠ separator) with
  | nil => exact .inl rfl
  | cons byte rest =>
      have stopped := List.head?_dropWhile_not (· ≠ separator) text
      rw [found] at stopped
      have same : byte = separator := by simpa using stopped
      exact .inr ⟨rest, by rw [same]⟩

theorem behind_separator (nulFree : 0 ∉ text) (nonzero : separator ≠ 0) :
    ∃ stop last, advance (fun byte => byte != 0 && byte ≠ separator) (text ++ [0]) = some stop ∧
      stop.head? = some last ∧ stop = text.dropWhile (· ≠ separator) ++ [0] ∧
      (last = separator ∨ last = 0) ∧
      (if last = separator then stop.tail else stop) =
        (text.dropWhile (· ≠ separator)).drop 1 ++ [0] := by
  refine ⟨_, (text.dropWhile (· ≠ separator) ++ [0]).headD 0, advance_before nulFree, ?_⟩
  rcases dropWhile_separator text separator with ended | ⟨rest, found⟩
  · rw [ended]
    exact ⟨rfl, rfl, .inr rfl, if_neg nonzero.symm⟩
  · rw [found]
    exact ⟨rfl, rfl, .inl rfl, if_pos rfl⟩

theorem extractValueAt_terminated (nulFree : 0 ∉ text) (nonzero : separator ≠ 0) :
    extractValueAt (text ++ [0]) separator =
      some ((extractValue text separator).map fun found => (found.1, found.2 ++ [0])) := by
  have startFree : 0 ∉ text.dropWhile isspace := nulFree_dropWhile nulFree
  unfold extractValueAt extractValue
  rw [advance_isspace]
  generalize text.dropWhile isspace = start at startFree ⊢
  simp only [Option.bind_eq_bind, Option.bind_some]
  split
  · rename_i quoted
    have quotedFree : 0 ∉ quoted := fun member => startFree (List.mem_cons_of_mem _ member)
    simp only [List.cons_append, List.head?_cons, Option.bind_some, if_true, List.tail_cons]
    rw [advance_before quotedFree, Option.bind_some]
    have closedFree : 0 ∉ quoted.dropWhile (· ≠ 34) := nulFree_dropWhile quotedFree
    rcases dropWhile_separator quoted 34 with unclosed | ⟨closed, found⟩
    · rw [unclosed]
      rfl
    · have token : between (quoted ++ [0]) (quoted.dropWhile (· ≠ 34) ++ [0]) =
          quoted.takeWhile (· ≠ 34) := between_dropWhile
      rw [found] at closedFree token ⊢
      have free : 0 ∉ closed.dropWhile isspace :=
        nulFree_dropWhile fun member => closedFree (List.mem_cons_of_mem _ member)
      obtain ⟨stop, last, stopEq, lastEq, -, known, behind⟩ := behind_separator free nonzero
      rw [token]
      simp only [List.cons_append, List.head?_cons, List.tail_cons, Option.bind_some,
        advance_isspace, stopEq, lastEq, Option.map_some, ← behind]
      rcases known with rfl | rfl
      · simp
      · simp [nonzero.symm]
  · rename_i plain
    obtain ⟨stop, last, stopEq, lastEq, stopIs, -, behind⟩ := behind_separator startFree nonzero
    have token : between (start ++ [0]) (start.dropWhile (· ≠ separator) ++ [0]) =
        start.takeWhile (· ≠ separator) := between_dropWhile
    rw [← stopIs] at token
    obtain ⟨opening, openingEq, unquoted⟩ :
        ∃ opening, (start ++ [0]).head? = some opening ∧ opening ≠ 34 := by
      cases start with
      | nil => exact ⟨0, rfl, by decide⟩
      | cons first rest => exact ⟨first, rfl, fun same => plain rest (by rw [same])⟩
    rw [openingEq, Option.bind_some, if_neg unquoted, stopEq, Option.bind_some, lastEq,
      Option.bind_some, token, behind]
    rfl

theorem extractParamAt_terminated (nulFree : 0 ∉ text) (nonzero : separator ≠ 0) :
    extractParamAt (text ++ [0]) separator =
      some ((extractParam text separator).map fun found => (found.1, found.2 ++ [0])) := by
  have startFree : 0 ∉ text.dropWhile isspace := nulFree_dropWhile nulFree
  rw [extractParam_eq]
  unfold extractParamAt
  rw [advance_isspace]
  generalize text.dropWhile isspace = start at startFree ⊢
  simp only [Option.bind_eq_bind, Option.bind_some]
  rw [advance_before startFree, Option.bind_some, between_dropWhile, advance_isspace,
    Option.bind_some]
  have markFree : 0 ∉ (start.dropWhile (inName separator)).dropWhile isspace :=
    nulFree_dropWhile (nulFree_dropWhile startFree)
  generalize (start.dropWhile (inName separator)).dropWhile isspace = marked at markFree ⊢
  cases start with
  | nil => rfl
  | cons first rest =>
      have nonNul : first ≠ 0 := fun same => startFree (by simp [same])
      simp only [List.cons_append, List.head?_cons, Option.bind_some, nonNul, if_false]
      generalize (first :: rest).takeWhile (inName separator) = name
      by_cases empty : name.isEmpty = true
      · rw [if_pos empty, if_pos empty]
        rfl
      · rw [if_neg empty, if_neg empty]
        cases marked with
        | nil => simp [nonzero.symm]
        | cons mark behind =>
            have behindFree : 0 ∉ behind := fun member =>
              markFree (List.mem_cons_of_mem _ member)
            have markNonzero : mark ≠ 0 := fun same => markFree (by simp [same])
            simp only [List.cons_append, List.head?_cons, Option.bind_some, List.tail_cons,
              markNonzero, if_false, extractValueAt_terminated behindFree nonzero]
            by_cases separated : mark = separator
            · rw [if_pos separated, if_pos separated]
              rfl
            · rw [if_neg separated, if_neg separated]
              by_cases wrong : mark ≠ 61
              · rw [if_pos wrong, if_pos wrong]
                rfl
              · rw [if_neg wrong, if_neg wrong]
                simp [Option.map_map, Function.comp_def]

theorem extractValue_suffix {value rest : Bytes}
    (found : extractValue text separator = some (value, rest)) : rest <:+ text := by
  have start : text.dropWhile isspace <:+ text := List.dropWhile_suffix _
  unfold extractValue at found
  split at found
  · rename_i quoted opened
    rw [opened] at start
    split at found
    · cases found
    · rename_i closed ended
      have inside : closed <:+ quoted :=
        (List.suffix_cons _ _).trans (ended ▸ List.dropWhile_suffix _)
      cases found
      exact (List.drop_suffix _ _).trans ((List.dropWhile_suffix _).trans
        ((List.dropWhile_suffix _).trans (inside.trans ((List.suffix_cons _ _).trans start))))
  · cases found
    exact (List.drop_suffix _ _).trans ((List.dropWhile_suffix _).trans start)

theorem extractParam_suffix {param : Bytes × Bytes} {rest : Bytes}
    (found : extractParam text separator = some (param, rest)) :
    rest <:+ text ∧ rest.length < text.length := by
  rw [extractParam_eq] at found
  have start : text.dropWhile isspace <:+ text := List.dropWhile_suffix _
  generalize text.dropWhile isspace = named at found start
  split at found
  · cases found
  · rename_i nonempty
    have split := congrArg List.length
      (List.takeWhile_append_dropWhile (p := inName separator) (l := named))
    have taken := List.length_pos_iff.mpr (mt List.isEmpty_iff.mpr nonempty)
    have marked : (named.dropWhile (inName separator)).dropWhile isspace <:+
        named.dropWhile (inName separator) := List.dropWhile_suffix _
    have inside : named.dropWhile (inName separator) <:+ named := List.dropWhile_suffix _
    have shorter : rest <:+ named.dropWhile (inName separator) := by
      split at found
      · cases found
        exact List.nil_suffix
      · rename_i mark behind here
        rw [here] at marked
        have tail := (List.suffix_cons mark behind).trans marked
        split at found
        · cases found
          exact tail
        · split at found
          · cases found
          · obtain ⟨⟨value, behindValue⟩, valued, same⟩ := Option.map_eq_some_iff.mp found
            cases same
            exact (extractValue_suffix valued).trans tail
    have bound := shorter.length_le
    have whole := start.length_le
    rw [List.length_append] at split
    exact ⟨shorter.trans (inside.trans start), by omega⟩

/-- On a terminated text the loop reads nothing behind the text and comes to its end. -/
theorem digestParamsAt_terminated {fuel more : Nat} {params : DigestParams} (nulFree : 0 ∉ text)
    (enough : text.length < fuel) (covered : text.length ≤ more) :
    digestParamsAt fuel (text ++ [0]) params = some (digestParams more text params) := by
  induction fuel generalizing text params more with
  | zero => omega
  | succ fuel ih =>
      rw [digestParamsAt, extractParamAt_terminated nulFree (by decide), Option.bind_some]
      cases found : extractParam text 44 with
      | none =>
          cases more with
          | zero => rfl
          | succ more => simp only [digestParams, found, Option.map_none]
      | some result =>
          obtain ⟨⟨name, value⟩, rest⟩ := result
          obtain ⟨suffix, shorter⟩ := extractParam_suffix found
          cases more with
          | zero => omega
          | succ more =>
              simp only [digestParams, found, Option.map_some]
              exact ih (fun member => nulFree (suffix.subset member)) (by omega) (by omega)

theorem encodeAt_terminated (hash : Bytes → Bytes) (user passwd method path : Bytes) (count : Nat)
    (cnonce : Bytes) (nulFree : 0 ∉ text) :
    digestAuthenticationEncodeAt hash user passwd method path count cnonce (text ++ [0]) =
      some (encodeParams hash user passwd method path count cnonce
        (digestParams text.length text
          { realm := none, opaqueText := none, nonce := none, qop := none })) := by
  rw [digestAuthenticationEncodeAt,
    digestParamsAt_terminated nulFree (by rw [List.length_append]; omega) (Nat.le_refl text.length), Option.map_some]

/-- Where seven bytes are stored, the reads end with them and give what `HttpCore` takes. -/
theorem encodeAt_stored {query : Bytes} (user passwd method path : Bytes) (count : Nat)
    (cnonce : Bytes) (nulFree : 0 ∉ query) (long : 7 ≤ query.length) :
    digestAuthenticationEncodeAt md5Hex user passwd method path count cnonce
        ((query ++ [0]).drop 7) =
      some (digestAuthenticationEncode (query.drop 7) user passwd method path count cnonce) := by
  rw [List.drop_append_of_le_length long, encodeAt_terminated _ _ _ _ _ _ _
    (fun member => nulFree (List.mem_of_mem_drop member)), encode_eq_encodeParams]

end Terminated

end ProxySet
