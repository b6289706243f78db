import OpenDweb.Fabric.Protocol
import OpenDweb.Continuity.HandleFrame
import OpenDweb.Lib.Updates

/-!
# OpenDweb — OPEN payloads and the key read out of them

A client puts the idempotency key of a request into the OPEN payload, a JSON text; the
provider finds it again by searching the text for `"idempotencyKey"`. `fetch_http` writes
the metadata of the whole request, and serde_json sorts the keys of an object, so that the
headers stand before the key; `open_stream` writes the stream id and the key as they are.

* **`openMetaJson`**, **`replayOpenPayload`** — the two texts.
* **`afterFirst_jsonString`** — a quoted string hides the key from the search exactly when it
  is the key's name or ends in a quote and the name.
* **`parseIdemKey_payload_iff`** — which requests have their key read back.
* **`requests_kept_apart_iff`** — two requests stay two streams exactly when both do.
-/

namespace Dweb

open Std (ExtTreeMap)
open List

/-! ## serde_json text -/

/-- `format_escaped_str_contents`: a quote, a backslash or a control character is escaped. -/
def escapeChar (c : Char) : List Char :=
  if c = '"' then ['\\', '"']
  else if c = '\\' then ['\\', '\\']
  else if c.toNat = 8 then ['\\', 'b']
  else if c.toNat = 12 then ['\\', 'f']
  else if c = '\n' then ['\\', 'n']
  else if c = '\r' then ['\\', 'r']
  else if c = '\t' then ['\\', 't']
  else if c.toNat < 32 then '\\' :: 'u' :: '0' :: '0' :: (hexByte (UInt8.ofNat c.toNat)).toList
  else [c]

def escape (cs : List Char) : List Char := cs.flatMap escapeChar

def jsonString (s : String) : List Char := '"' :: escape s.toList ++ ['"']

def jsonNumber (n : Nat) : List Char := (toString n).toList

def jsonArray (items : List (List Char)) : List Char := '[' :: [','].intercalate items ++ [']']

def jsonField (field : String × List Char) : List Char := jsonString field.1 ++ ':' :: field.2

def jsonObject (fields : List (String × List Char)) : List Char :=
  '\x7b' :: [','].intercalate (fields.map jsonField) ++ ['\x7d']

/-! ## Requests -/

structure Header where
  name : String
  value : String

structure HttpRequestInit where
  method : String
  path : String
  headers : List Header
  body : List Bytes

/-- Lower-case hexadecimal, as the keys of `fetch_http` are written. -/
def hex16 (b : BytesN 16) : String := hexStr b.toBytes

namespace HttpRequestInit

def bodyLen (init : HttpRequestInit) : Nat := (init.body.map List.length).sum

def contentType (init : HttpRequestInit) : String :=
  ((init.headers.find? fun h => eqIgnoreAsciiCase h.name "content-type").map Header.value).getD ""

def headerJson (h : Header) : List Char :=
  jsonObject [("name", jsonString h.name), ("value", jsonString h.value)]

def openMetaJson (init : HttpRequestInit) (idem : String) : List Char :=
  jsonObject [
    ("bodyLength", jsonNumber init.bodyLen),
    ("contentType", jsonString init.contentType),
    ("headers", jsonArray (init.headers.map headerJson)),
    ("idempotencyKey", jsonString idem),
    ("method", jsonString init.method),
    ("path", jsonString init.path)]

end HttpRequestInit

/-- A request as it is opened: by `fetch_http` under a random key, or by `open_stream` under
the caller's. -/
inductive OpenRequest where
  | http (init : HttpRequestInit) (idem : BytesN 16)
  | stream (streamId : Nat) (idemKey : String)

namespace OpenRequest

def idemKey : OpenRequest → String
  | http _ idem => hex16 idem
  | stream _ idemKey => idemKey

def payload : OpenRequest → Bytes
  | http init idem => (String.ofList (init.openMetaJson (hex16 idem))).toUTF8.data.toList
  | stream streamId idemKey => SessionShared.replayOpenPayload streamId idemKey

end OpenRequest

/-! ## Searching between quotes -/

def keyName : List Char := "idempotencyKey".toList

/-- What `parse_idem_key` searches for. -/
def keyPattern : List Char := "\"idempotencyKey\"".toList

theorem keyPattern_eq : keyPattern = '"' :: keyName ++ ['"'] := by decide

variable {pre sep cs key : List Char} {c : Char}

theorem afterFirst_skip (hpre : '"' ∉ pre) (rest : List Char) :
    afterFirst keyPattern (pre ++ rest) = afterFirst keyPattern rest := by
  induction pre with
  | nil => rfl
  | cons c pre ih =>
    have hc : ¬(keyPattern.isPrefixOf (c :: (pre ++ rest)) = true) := by
      intro h
      rw [keyPattern_eq, cons_append, isPrefixOf_cons_cons] at h
      have hquote : '"' = c := by simpa using (Bool.and_eq_true_iff.mp h).1
      exact hpre (hquote ▸ mem_cons_self)
    rw [cons_append, afterFirst, if_neg hc]
    exact ih fun h => hpre (mem_cons_of_mem c h)

/-- Two texts without quotes that are each followed by one agree as soon as one of them is
found at the start of the other. -/
theorem eq_of_closed_start {a b rest : List Char} (ha : '"' ∉ a) (hb : '"' ∉ b)
    (h : a ++ ['"'] <+: b ++ '"' :: rest) : a = b := by
  induction a generalizing b with
  | nil =>
    cases b with
    | nil => rfl
    | cons c b => exact absurd ((cons_prefix_cons.mp h).1 ▸ mem_cons_self) hb
  | cons c a ih =>
    cases b with
    | nil => exact absurd ((cons_prefix_cons.mp h).1 ▸ mem_cons_self) ha
    | cons d b =>
      obtain ⟨hcd, htail⟩ := cons_prefix_cons.mp h
      rw [hcd, ih (fun h => ha (mem_cons_of_mem c h))
        (fun h => hb (mem_cons_of_mem d h)) htail]

theorem afterFirst_segment {seg : List Char} (hseg : '"' ∉ seg) (rest : List Char) :
    afterFirst keyPattern ('"' :: seg ++ '"' :: rest)
      = if seg = keyName then some rest else afterFirst keyPattern ('"' :: rest) := by
  rw [cons_append, afterFirst]
  by_cases hname : seg = keyName
  · have htext : '"' :: (seg ++ '"' :: rest) = keyPattern ++ rest := by
      rw [hname, keyPattern_eq, append_assoc, singleton_append, cons_append]
    rw [htext, if_pos (List.isPrefixOf_iff_prefix.mpr (prefix_append _ _)), if_pos hname,
      drop_left]
  · have hnot : ¬(keyPattern.isPrefixOf ('"' :: (seg ++ '"' :: rest)) = true) := by
      intro h
      rw [List.isPrefixOf_iff_prefix, keyPattern_eq, cons_append, cons_prefix_cons] at h
      exact hname (eq_of_closed_start (by decide) hseg h.2).symm
    rw [if_neg hnot, if_neg hname]
    exact afterFirst_skip hseg _

theorem afterFirst_between (hsep : '"' ∉ sep) (hname : sep ≠ keyName) (rest : List Char) :
    afterFirst keyPattern ('"' :: sep ++ '"' :: rest) = afterFirst keyPattern ('"' :: rest) := by
  rw [afterFirst_segment hsep, if_neg hname]

/-! ## Quoted strings -/

/-- The quoted text of `s` ends in the quoted name of the key. -/
def HidesKey (s : String) : Prop := s.toList = keyName ∨ '"' :: keyName <:+ s.toList

instance (s : String) : Decidable (HidesKey s) := by
  unfold HidesKey
  infer_instance

theorem mem_hexByte {b : UInt8} (h : c ∈ (hexByte b).toList) : c ∈ "0123456789abcdef".toList := by
  have hdigit : ∀ n, "0123456789abcdef".toList.getD n '0' ∈ "0123456789abcdef".toList := by
    intro n
    by_cases hn : n < "0123456789abcdef".toList.length
    · rw [getD_eq_getElem _ _ hn]
      exact getElem_mem hn
    · rw [getD_eq_default _ _ (by omega)]
      decide
  unfold hexByte at h
  rw [String.toList_ofList] at h
  rcases mem_cons.mp h with heq | h
  · exact heq ▸ hdigit _
  · exact mem_singleton.mp h ▸ hdigit _

theorem escapeChar_cases (hquote : c ≠ '"') :
    '"' ∉ escapeChar c ∧ ('\\' ∈ escapeChar c ∨ escapeChar c = [c]) := by
  unfold escapeChar
  rw [if_neg hquote]
  split
  · exact ⟨by decide, Or.inl mem_cons_self⟩
  split
  · exact ⟨by decide, Or.inl mem_cons_self⟩
  split
  · exact ⟨by decide, Or.inl mem_cons_self⟩
  split
  · exact ⟨by decide, Or.inl mem_cons_self⟩
  split
  · exact ⟨by decide, Or.inl mem_cons_self⟩
  split
  · exact ⟨by decide, Or.inl mem_cons_self⟩
  split
  · refine ⟨fun h => ?_, Or.inl mem_cons_self⟩
    simp only [mem_cons, Char.reduceEq, false_or] at h
    exact absurd (mem_hexByte h) (by decide)
  · exact ⟨fun h => hquote (mem_singleton.mp h).symm, Or.inr rfl⟩

theorem backslash_mem_escape_quote : '\\' ∈ escapeChar '"' := by decide

theorem escape_eq_keyName : escape cs = keyName ↔ cs = keyName := by
  refine ⟨fun h => ?_, fun h => (by rw [h]; decide)⟩
  have hplain : '\\' ∉ escape cs := h ▸ by decide
  have hchar : ∀ c ∈ cs, escapeChar c = [c] := by
    intro c hc
    have hbackslash : '\\' ∉ escapeChar c := fun hmem =>
      hplain (mem_flatMap.mpr ⟨c, hc, hmem⟩)
    by_cases hquote : c = '"'
    · exact absurd (hquote ▸ backslash_mem_escape_quote) hbackslash
    · exact (escapeChar_cases hquote).2.resolve_left hbackslash
  have hself : escape cs = cs := by
    rw [escape, flatMap_congr hchar, flatMap_singleton']
  rw [← hself, h]

/-- **The search through a quoted string.** Before every quote of the text stands a
backslash, so that only its last part can be the name of the key. The induction carries what
precedes the next quote. -/
theorem afterFirst_escape {acc : List Char} (hacc : '"' ∉ acc) (cs rest : List Char) :
    afterFirst keyPattern ('"' :: (acc ++ escape cs) ++ '"' :: rest)
      = if acc ++ escape cs = keyName ∨ '"' :: keyName <:+ cs then some rest
        else afterFirst keyPattern ('"' :: rest) := by
  induction cs generalizing acc with
  | nil =>
    have hnil : ¬('"' :: keyName <:+ []) := by simp
    simp only [escape, flatMap_nil, append_nil, hnil, or_false]
    exact afterFirst_segment hacc rest
  | cons c cs ih =>
    have hcons : escape (c :: cs) = escapeChar c ++ escape cs := flatMap_cons
    by_cases hquote : c = '"'
    · subst hquote
      have hmarked : ∀ l, acc ++ ('\\' :: l) ≠ keyName := by
        intro l h
        have hmem : '\\' ∈ keyName := h ▸ mem_append_right acc mem_cons_self
        exact absurd hmem (by decide)
      have htext : '"' :: (acc ++ escape ('"' :: cs)) ++ '"' :: rest
          = '"' :: (acc ++ ['\\']) ++ '"' :: (([] ++ escape cs) ++ '"' :: rest) := by
        rw [hcons]
        simp [escapeChar]
      have hleft : '"' ∉ acc ++ ['\\'] := by simp [hacc]
      rw [htext, afterFirst_between hleft (hmarked []), ← cons_append, ih (by simp), hcons]
      congr 1
      have hnever : acc ++ (escapeChar '"' ++ escape cs) ≠ keyName := hmarked _
      have hlast : '"' :: keyName = '"' :: cs ↔ escape cs = keyName := by
        rw [escape_eq_keyName, cons_inj_right, eq_comm]
      simp only [nil_append, suffix_cons_iff, hlast, hnever, false_or]
    · have hne : '"' :: keyName ≠ c :: cs := fun h => hquote (List.cons.inj h).1.symm
      have hleft : '"' ∉ acc ++ escapeChar c := by
        rw [mem_append, not_or]
        exact ⟨hacc, (escapeChar_cases hquote).1⟩
      rw [hcons, ← append_assoc, ih hleft]
      simp only [suffix_cons_iff, hne, false_or]

theorem afterFirst_jsonString (s : String) (rest : List Char) :
    afterFirst keyPattern (jsonString s ++ rest)
      = if HidesKey s then some rest else afterFirst keyPattern ('"' :: rest) := by
  have h := afterFirst_escape (show '"' ∉ ([] : List Char) by simp) s.toList rest
  simp only [nil_append, escape_eq_keyName] at h
  rw [jsonString, append_assoc, singleton_append]
  exact h

/-! ## The metadata of a request -/

theorem ne_keyName_of_mem (hmem : c ∈ sep) (hc : c ∉ keyName) :
    sep ≠ keyName := fun h => hc (h ▸ hmem)

theorem afterFirst_next (hsep : '"' ∉ sep) (hsep' : sep ≠ keyName) (s : String) (rest : List Char) :
    afterFirst keyPattern ('"' :: (sep ++ (jsonString s ++ rest)))
      = if HidesKey s then some rest else afterFirst keyPattern ('"' :: rest) := by
  have htext : '"' :: (sep ++ (jsonString s ++ rest))
      = '"' :: sep ++ '"' :: (escape s.toList ++ '"' :: rest) := by
    simp [jsonString]
  rw [← afterFirst_jsonString, htext, afterFirst_between hsep hsep']
  simp [jsonString]

theorem afterFirst_nextName (hsep : '"' ∉ sep) (hsep' : sep ≠ keyName) {name : String}
    (hname : ¬HidesKey name) (rest : List Char) :
    afterFirst keyPattern ('"' :: (sep ++ (jsonString name ++ rest)))
      = afterFirst keyPattern ('"' :: rest) := by
  rw [afterFirst_next hsep hsep', if_neg hname]

def HeadersHideKey (headers : List Header) : Prop :=
  ∃ h ∈ headers, HidesKey h.name ∨ HidesKey h.value

instance (headers : List Header) : Decidable (HeadersHideKey headers) := by
  unfold HeadersHideKey
  infer_instance

theorem headerJson_append (h : Header) (rest : List Char) :
    HttpRequestInit.headerJson h ++ rest
      = ['\x7b'] ++ (jsonString "name" ++ ([':'] ++ (jsonString h.name
          ++ ([','] ++ (jsonString "value" ++ ([':'] ++ (jsonString h.value
            ++ '\x7d' :: rest))))))) := by
  simp only [HttpRequestInit.headerJson, jsonObject, jsonField, map_cons, map_nil,
    intercalate_cons_cons, intercalate_singleton, append_assoc, cons_append,
    nil_append]

theorem afterFirst_headerJson (hpre : '"' ∉ pre) (h : Header) (rest : List Char) :
    (HidesKey h.name ∨ HidesKey h.value →
      ∃ c tail, c ∈ [',', '\x7d']
        ∧ afterFirst keyPattern ('"' :: (pre ++ (HttpRequestInit.headerJson h ++ rest)))
          = some (c :: tail))
    ∧ (¬(HidesKey h.name ∨ HidesKey h.value) →
      afterFirst keyPattern ('"' :: (pre ++ (HttpRequestInit.headerJson h ++ rest)))
        = afterFirst keyPattern ('"' :: '\x7d' :: rest)) := by
  have hopen : '"' ∉ pre ++ ['\x7b'] := by simp [hpre]
  have hopen' : pre ++ ['\x7b'] ≠ keyName :=
    ne_keyName_of_mem (mem_append_right pre (mem_singleton_self _)) (by decide)
  rw [headerJson_append, ← append_assoc, afterFirst_nextName hopen hopen' (by decide),
    afterFirst_next (by decide) (by decide)]
  by_cases hname : HidesKey h.name
  · rw [if_pos hname]
    exact ⟨fun _ => ⟨',', _, by simp, rfl⟩, fun hnot => absurd (Or.inl hname) hnot⟩
  rw [if_neg hname, afterFirst_nextName (by decide) (by decide) (by decide),
    afterFirst_next (by decide) (by decide)]
  by_cases hvalue : HidesKey h.value
  · rw [if_pos hvalue]
    exact ⟨fun _ => ⟨'\x7d', _, by simp, rfl⟩, fun hnot => absurd (Or.inr hvalue) hnot⟩
  rw [if_neg hvalue]
  exact ⟨fun hhide => hhide.elim (absurd · hname) (absurd · hvalue), fun _ => rfl⟩

def headersText (headers : List Header) : List Char :=
  [','].intercalate (headers.map HttpRequestInit.headerJson)

theorem headersText_cons (h : Header) (headers : List Header) :
    headersText (h :: headers)
      = HttpRequestInit.headerJson h
        ++ (if headers = [] then [] else ',' :: headersText headers) := by
  unfold headersText
  cases headers with
  | nil => simp
  | cons h' headers =>
    rw [if_neg (cons_ne_nil h' headers), map_cons, map_cons,
      intercalate_cons_cons, append_assoc]
    rfl

/-- **The search through the headers**: past them all, or up to one that hides the key, and
then no colon follows. -/
theorem afterFirst_headers (hpre : '"' ∉ pre) (headers : List Header) (rest : List Char) :
    (HeadersHideKey headers →
      ∃ c tail, c ∈ [',', '\x7d']
        ∧ afterFirst keyPattern
            ('"' :: (pre ++ (headersText headers
              ++ (']' :: ',' :: (jsonString "idempotencyKey" ++ rest)))))
          = some (c :: tail))
    ∧ (¬HeadersHideKey headers →
      afterFirst keyPattern
          ('"' :: (pre ++ (headersText headers
            ++ (']' :: ',' :: (jsonString "idempotencyKey" ++ rest)))))
        = some rest) := by
  induction headers generalizing pre with
  | nil =>
    have hsep : '"' ∉ pre ++ [']', ','] := by simp [hpre]
    have hsep' : pre ++ [']', ','] ≠ keyName :=
      ne_keyName_of_mem (c := ']') (mem_append_right pre mem_cons_self) (by decide)
    have htext : pre ++ (headersText [] ++ (']' :: ',' :: (jsonString "idempotencyKey" ++ rest)))
        = pre ++ [']', ','] ++ (jsonString "idempotencyKey" ++ rest) := by
      simp [headersText]
    rw [htext, afterFirst_next hsep hsep', if_pos (by decide)]
    exact ⟨fun ⟨h, hmem, _⟩ => absurd hmem not_mem_nil, fun _ => rfl⟩
  | cons h headers ih =>
    have hsplit : HeadersHideKey (h :: headers)
        ↔ (HidesKey h.name ∨ HidesKey h.value) ∨ HeadersHideKey headers := by
      simp only [HeadersHideKey, exists_mem_cons_iff]
    have hhere := afterFirst_headerJson hpre h
      ((if headers = [] then [] else ',' :: headersText headers)
        ++ (']' :: ',' :: (jsonString "idempotencyKey" ++ rest)))
    -- a comma before the next header, nothing after the last one
    obtain ⟨pre', hpre', hnext⟩ : ∃ pre' : List Char, '"' ∉ pre'
        ∧ '\x7d' :: ((if headers = [] then [] else ',' :: headersText headers)
            ++ (']' :: ',' :: (jsonString "idempotencyKey" ++ rest)))
          = pre' ++ (headersText headers
              ++ (']' :: ',' :: (jsonString "idempotencyKey" ++ rest))) := by
      cases headers with
      | nil => exact ⟨['\x7d'], by decide, by simp [headersText]⟩
      | cons h' headers => exact ⟨['\x7d', ','], by decide, by simp⟩
    rw [hnext] at hhere
    rw [headersText_cons, append_assoc, hsplit]
    by_cases hhide : HidesKey h.name ∨ HidesKey h.value
    · exact ⟨fun _ => hhere.1 hhide, fun hnot => absurd (Or.inl hhide) hnot⟩
    · rw [hhere.2 hhide]
      simp only [hhide, false_or]
      exact ih hpre'

/-! ## The key read out of a payload -/

namespace OpenRequest

def Plain : OpenRequest → Prop
  | http init _ => ¬HeadersHideKey init.headers
  | stream _ idemKey => '"' ∉ idemKey.toList

instance (r : OpenRequest) : Decidable r.Plain := by
  unfold Plain
  split <;> infer_instance

end OpenRequest

theorem trimStart_cons (h : isWhitespace c = false) (cs : List Char) :
    trimStart (c :: cs) = c :: cs := dropWhile_cons_of_neg (by simp [h])

theorem parseIdemKey_found {text : String} {rest : List Char}
    (hfound : afterFirst keyPattern text.toList = some (':' :: '"' :: rest))
    (hkey : upTo '"' rest = some key) :
    parseIdemKey text.toUTF8.data.toList = String.ofList key := by
  unfold keyPattern at hfound
  unfold parseIdemKey
  simp only [fromUtf8Lossy_toUTF8, hfound, Option.bind_some,
    trimStart_cons (show isWhitespace ':' = false by decide),
    trimStart_cons (show isWhitespace '"' = false by decide), hkey]

theorem parseIdemKey_fallback {text : String} {tail : List Char} (hc : c ∈ [',', '\x7d'])
    (hfound : afterFirst keyPattern text.toList = some (c :: tail)) :
    parseIdemKey text.toUTF8.data.toList = "auto-" ++ toString (utf8Len text.toList) := by
  have hblank : isWhitespace c = false := by
    rcases mem_pair.mp hc with rfl | rfl <;> decide
  have hcolon : c ≠ ':' := by
    rcases mem_pair.mp hc with rfl | rfl <;> decide
  unfold keyPattern at hfound
  unfold parseIdemKey
  simp only [fromUtf8Lossy_toUTF8, hfound, Option.bind_some, trimStart_cons hblank]
  split
  · next key hkey =>
    split at hkey
    · next heq => exact absurd (List.cons.inj heq).1 hcolon
    · cases hkey
  · rfl

theorem upTo_of_not_mem (h : '"' ∉ key) (rest : List Char) :
    upTo '"' (key ++ '"' :: rest) = some key := by
  induction key with
  | nil => rfl
  | cons c key ih =>
    have hc : c ≠ '"' := fun heq => h (heq ▸ mem_cons_self)
    rw [cons_append, upTo, if_neg hc, ih fun hmem => h (mem_cons_of_mem c hmem)]
    rfl

theorem exists_upTo (h : '"' ∈ cs) (rest : List Char) :
    ∃ key, upTo '"' (cs ++ rest) = some key := by
  induction cs with
  | nil => cases h
  | cons c cs ih =>
    rw [cons_append, upTo]
    split
    · exact ⟨[], rfl⟩
    · next hc =>
      have hmem : '"' ∈ cs := (mem_cons.mp h).resolve_left fun heq => hc heq.symm
      obtain ⟨key, hkey⟩ := ih hmem
      exact ⟨c :: key, by rw [hkey]; rfl⟩

theorem not_mem_of_upTo (h : upTo '"' cs = some key) : '"' ∉ key := by
  induction cs generalizing key with
  | nil => cases h
  | cons c cs ih =>
    rw [upTo] at h
    split at h
    · cases h
      exact not_mem_nil
    · next hc =>
      obtain ⟨key', hkey', rfl⟩ := Option.map_eq_some_iff.mp h
      exact fun hmem => (mem_cons.mp hmem).elim (fun heq => hc heq.symm) (ih hkey')

/-! ### A key of `fetch_http` -/

theorem mem_hex16 {b : BytesN 16} (h : c ∈ (hex16 b).toList) : c ∈ "0123456789abcdef".toList := by
  unfold hex16 hexStr at h
  rw [String.toList_join] at h
  obtain ⟨s, hs, hc⟩ := mem_flatMap.mp h
  obtain ⟨byte, -, rfl⟩ := mem_map.mp hs
  exact mem_hexByte hc

theorem escape_hex16 (b : BytesN 16) : escape (hex16 b).toList = (hex16 b).toList := by
  have hdigits : ("0123456789abcdef".toList.all fun c => escapeChar c = [c]) = true := by decide
  have hchar : ∀ c ∈ (hex16 b).toList, escapeChar c = [c] := fun c hc =>
    of_decide_eq_true (all_eq_true.mp hdigits c (mem_hex16 hc))
  rw [escape, flatMap_congr hchar, flatMap_singleton']

theorem quote_not_mem_hex16 (b : BytesN 16) : '"' ∉ (hex16 b).toList := fun h =>
  absurd (mem_hex16 h) (by decide)

theorem auto_ne_hex16 (b : BytesN 16) (n : String) : "auto-" ++ n ≠ hex16 b := by
  intro h
  have hmem : 'u' ∈ (hex16 b).toList := by
    rw [← h, String.toList_append]
    exact mem_append_left _ (by decide)
  exact absurd (mem_hex16 hmem) (by decide)

theorem quote_not_mem_jsonNumber (n : Nat) : '"' ∉ jsonNumber n := by
  intro h
  have hdigits : '"' ∈ Nat.toDigits 10 n := Nat.toList_repr ▸ h
  exact absurd (Nat.isDigit_of_mem_toDigits (by decide) (by decide) hdigits) (by decide)

/-! ### The metadata -/

def afterKey (init : HttpRequestInit) : List Char :=
  ',' :: (jsonField ("method", jsonString init.method)
    ++ ',' :: (jsonField ("path", jsonString init.path) ++ ['\x7d']))

theorem openMetaJson_eq (init : HttpRequestInit) (idem : String) :
    init.openMetaJson idem
      = ['\x7b'] ++ (jsonString "bodyLength" ++ (':' :: jsonNumber init.bodyLen ++ [',']
          ++ (jsonString "contentType" ++ ([':'] ++ (jsonString init.contentType
            ++ ([','] ++ (jsonString "headers" ++ ([':', '['] ++ (headersText init.headers
              ++ (']' :: ',' :: (jsonString "idempotencyKey"
                ++ (':' :: (jsonString idem ++ afterKey init))))))))))))) := by
  simp only [HttpRequestInit.openMetaJson, jsonObject, jsonField, jsonArray, headersText, afterKey,
    map_cons, map_nil, intercalate_cons_cons, intercalate_singleton,
    append_assoc, cons_append, nil_append]

theorem headersHideKey_of_contentType {init : HttpRequestInit} (h : HidesKey init.contentType) :
    HeadersHideKey init.headers := by
  unfold HttpRequestInit.contentType at h
  cases hfind : init.headers.find? fun h => eqIgnoreAsciiCase h.name "content-type" with
  | none =>
    rw [hfind] at h
    exact absurd h (by decide)
  | some header =>
    rw [hfind] at h
    exact ⟨header, mem_of_find?_eq_some hfind, Or.inr h⟩

/-- **The search through the metadata**: to the key, or to a header that hides it. -/
theorem afterFirst_openMetaJson (init : HttpRequestInit) (idem : String) :
    (HeadersHideKey init.headers →
      ∃ c tail, c ∈ [',', '\x7d']
        ∧ afterFirst keyPattern (init.openMetaJson idem) = some (c :: tail))
    ∧ (¬HeadersHideKey init.headers →
      afterFirst keyPattern (init.openMetaJson idem)
        = some (':' :: (jsonString idem ++ afterKey init))) := by
  have hlen : '"' ∉ ':' :: jsonNumber init.bodyLen ++ [','] := by
    rw [mem_append, mem_cons]
    simp only [Char.reduceEq, quote_not_mem_jsonNumber, mem_singleton, or_self,
      not_false_eq_true]
  have hlen' : ':' :: jsonNumber init.bodyLen ++ [','] ≠ keyName :=
    ne_keyName_of_mem mem_cons_self (by decide)
  rw [openMetaJson_eq, afterFirst_skip (by decide), afterFirst_jsonString, if_neg (by decide),
    afterFirst_nextName hlen hlen' (by decide), afterFirst_next (by decide) (by decide)]
  by_cases htype : HidesKey init.contentType
  · rw [if_pos htype]
    have hhide := headersHideKey_of_contentType htype
    exact ⟨fun _ => ⟨',', _, by simp, rfl⟩, fun hnot => absurd hhide hnot⟩
  · rw [if_neg htype, afterFirst_nextName (by decide) (by decide) (by decide)]
    exact afterFirst_headers (by decide) init.headers _

/-! ### The payload of `open_stream` -/

theorem replayOpen_parts (digits key : List Char) :
    "\x7b\"requestId\":\"".toList ++ digits ++ "\",\"idempotencyKey\":\"".toList ++ key
        ++ "\"\x7d".toList
      = ['\x7b'] ++ (jsonString "requestId" ++ ([':'] ++ '"' :: (digits ++ '"' :: ([',']
          ++ (jsonString "idempotencyKey" ++ ':' :: '"' :: (key ++ ['"', '\x7d'])))))) := by
  have hid : "\x7b\"requestId\":\"".toList = '\x7b' :: (jsonString "requestId" ++ [':', '"']) := by
    decide
  have hkey : "\",\"idempotencyKey\":\"".toList
      = '"' :: ',' :: (jsonString "idempotencyKey" ++ [':', '"']) := by
    decide
  have hend : "\"\x7d".toList = ['"', '\x7d'] := by decide
  rw [hid, hkey, hend]
  simp only [append_assoc, cons_append, nil_append]

theorem jsonNumber_ne_keyName (n : Nat) : jsonNumber n ≠ keyName := by
  intro h
  have hdigits : 'i' ∈ Nat.toDigits 10 n := by
    rw [← Nat.toList_repr]
    exact (show (Nat.repr n).toList = keyName from h) ▸ by decide
  exact absurd (Nat.isDigit_of_mem_toDigits (by decide) (by decide) hdigits) (by decide)

theorem parseIdemKey_replayOpenPayload {streamId : Nat} {idemKey : String}
    (hkey : upTo '"' (idemKey.toList ++ ['"', '\x7d']) = some key) :
    parseIdemKey (SessionShared.replayOpenPayload streamId idemKey) = String.ofList key := by
  refine parseIdemKey_found ?_ hkey
  simp only [String.toList_append]
  rw [replayOpen_parts, afterFirst_skip (by decide), afterFirst_jsonString, if_neg (by decide),
    ← cons_append, afterFirst_between (by decide) (by decide), ← cons_append,
    afterFirst_between
      (show '"' ∉ (toString streamId).toList from quote_not_mem_jsonNumber streamId)
      (jsonNumber_ne_keyName streamId),
    afterFirst_next (by decide) (by decide), if_pos (by decide)]

/-! ### Which requests have their key read back -/

/-- **A key is read back exactly from a plain request.** Otherwise a request of `fetch_http`
gets a key made up from the length of its metadata, and one of `open_stream` what stands
before the first quote. -/
theorem parseIdemKey_payload_iff (r : OpenRequest) :
    parseIdemKey r.payload = r.idemKey ↔ r.Plain := by
  cases r with
  | http init idem =>
    show parseIdemKey (String.ofList (init.openMetaJson (hex16 idem))).toUTF8.data.toList
      = hex16 idem ↔ ¬HeadersHideKey init.headers
    have hsearch := afterFirst_openMetaJson init (hex16 idem)
    rw [← String.toList_ofList (l := init.openMetaJson (hex16 idem))] at hsearch
    by_cases hhide : HeadersHideKey init.headers
    · obtain ⟨c, tail, hc, hfound⟩ := hsearch.1 hhide
      rw [parseIdemKey_fallback hc hfound]
      exact iff_of_false (auto_ne_hex16 idem _) (not_not.mpr hhide)
    · have hfound := hsearch.2 hhide
      rw [jsonString, escape_hex16, cons_append, cons_append, append_assoc] at hfound
      have hkey := upTo_of_not_mem (quote_not_mem_hex16 idem) (afterKey init)
      rw [parseIdemKey_found hfound hkey, String.ofList_toList]
      exact iff_of_true rfl hhide
  | stream streamId idemKey =>
    show parseIdemKey (SessionShared.replayOpenPayload streamId idemKey) = idemKey
      ↔ '"' ∉ idemKey.toList
    by_cases hquote : '"' ∈ idemKey.toList
    · obtain ⟨key, hkey⟩ := exists_upTo hquote ['"', '\x7d']
      refine iff_of_false (fun heq => ?_) (not_not.mpr hquote)
      rw [parseIdemKey_replayOpenPayload hkey] at heq
      rw [← heq, String.toList_ofList] at hquote
      exact not_mem_of_upTo hkey hquote
    · rw [parseIdemKey_replayOpenPayload (upTo_of_not_mem hquote ['\x7d']), String.ofList_toList]
      exact iff_of_true rfl hquote

/-! ## Booking OPENs -/

/-- Book OPENs one after another, each under the key read out of its payload: the streams
they are taken for. -/
def bookOpens (s : SessionShared) : List (Nat × Bytes) → SessionShared × List Nat
  | [] => (s, [])
  | (streamId, payload) :: opens =>
    let booked := s.onOpen streamId (parseIdemKey payload)
    let rest := bookOpens booked.1 opens
    (rest.1, booked.2.1 :: rest.2)

def IdemInjective (s : SessionShared) : Prop :=
  ∀ (key key' : String) (sid : Nat), s.idemIndex[key]? = some sid →
    s.idemIndex[key']? = some sid → key = key'

theorem onOpen_idemIndex (s : SessionShared) (sid : Nat) (key : String) :
    (s.onOpen sid key).1.idemIndex[key]? = some (s.onOpen sid key).2.1
      ∧ ∀ (key' : String) (sid' : Nat), s.idemIndex[key']? = some sid' →
          (s.onOpen sid key).1.idemIndex[key']? = some sid' := by
  unfold SessionShared.onOpen
  split
  · next existing hexisting => exact ⟨hexisting, fun _ _ h => h⟩
  · next hnone =>
    refine ⟨ExtTreeMap.getElem?_insert_self, fun key' sid' h => ?_⟩
    have hne : key ≠ key' := by
      rintro rfl
      rw [hnone] at h
      cases h
    show (s.idemIndex.insert key sid)[key']? = some sid'
    rw [ExtTreeMap.getElem?_insert, if_neg (by simpa using hne), h]

theorem bookOpens_booked (s : SessionShared) (opens : List (Nat × Bytes)) :
    (∀ (key : String) (sid : Nat), s.idemIndex[key]? = some sid →
      (bookOpens s opens).1.idemIndex[key]? = some sid)
    ∧ ∀ (i : Nat) (o : Nat × Bytes), opens[i]? = some o →
      ∃ sid, (bookOpens s opens).2[i]? = some sid
        ∧ (bookOpens s opens).1.idemIndex[parseIdemKey o.2]? = some sid := by
  induction opens generalizing s with
  | nil => exact ⟨fun _ _ h => h, fun i o h => (by cases h)⟩
  | cons o opens ih =>
    obtain ⟨streamId, payload⟩ := o
    obtain ⟨hself, hkeep⟩ := onOpen_idemIndex s streamId (parseIdemKey payload)
    obtain ⟨hkeep', hrest⟩ := ih (s.onOpen streamId (parseIdemKey payload)).1
    refine ⟨fun key sid h => hkeep' key sid (hkeep key sid h), fun i o h => ?_⟩
    cases i with
    | zero =>
      obtain rfl := Option.some.inj h
      exact ⟨_, rfl, hkeep' _ _ hself⟩
    | succ i => exact hrest i o h

def OneKeyPerStream (opens : List (Nat × Bytes)) : Prop :=
  ∀ o ∈ opens, ∀ o' ∈ opens, o.1 = o'.1 → parseIdemKey o.2 = parseIdemKey o'.2

theorem onOpen_injective {s : SessionShared} (hinj : IdemInjective s) {sid : Nat} {key : String}
    (hfresh : ∀ key' : String, s.idemIndex[key']? = some sid → key = key') :
    IdemInjective (s.onOpen sid key).1 := by
  unfold SessionShared.onOpen
  split
  · exact hinj
  · intro key₁ key₂ sid' h₁ h₂
    change (s.idemIndex.insert key sid)[key₁]? = some sid' at h₁
    change (s.idemIndex.insert key sid)[key₂]? = some sid' at h₂
    rw [ExtTreeMap.getElem?_insert] at h₁ h₂
    split at h₁
    · next heq₁ =>
      obtain rfl := compare_eq_iff_eq.mp heq₁
      obtain rfl := Option.some.inj h₁
      split at h₂
      · next heq₂ => exact compare_eq_iff_eq.mp heq₂
      · exact hfresh key₂ h₂
    · split at h₂
      · next heq₂ =>
        obtain rfl := compare_eq_iff_eq.mp heq₂
        obtain rfl := Option.some.inj h₂
        exact (hfresh key₁ h₁).symm
      · exact hinj key₁ key₂ sid' h₁ h₂

theorem bookOpens_injective {s : SessionShared} {opens : List (Nat × Bytes)}
    (hone : OneKeyPerStream opens) (hinj : IdemInjective s)
    (hfresh : ∀ (key : String) (sid : Nat), s.idemIndex[key]? = some sid →
      ∀ o ∈ opens, o.1 = sid → parseIdemKey o.2 = key) :
    IdemInjective (bookOpens s opens).1 := by
  induction opens generalizing s with
  | nil => exact hinj
  | cons o opens ih =>
    obtain ⟨streamId, payload⟩ := o
    have hone' : OneKeyPerStream opens := fun o ho o' ho' =>
      hone o (mem_cons_of_mem _ ho) o' (mem_cons_of_mem _ ho')
    refine ih hone'
      (onOpen_injective hinj fun key h => hfresh key streamId h _ mem_cons_self rfl) ?_
    intro key sid hkey o ho hid
    unfold SessionShared.onOpen at hkey
    split at hkey
    · exact hfresh key sid hkey o (mem_cons_of_mem _ ho) hid
    · rcases getElem?_insert_cases hkey with ⟨rfl, rfl⟩ | ⟨-, hkey⟩
      · exact hone o (mem_cons_of_mem _ ho) (streamId, payload) mem_cons_self hid
      · exact hfresh key sid hkey o (mem_cons_of_mem _ ho) hid

/-- Two requests stay apart: each key is read as it was put in, and among any OPENs of a
session in which a stream id belongs to one request, theirs are taken for two streams. -/
def KeptApart (r r' : OpenRequest) : Prop :=
  parseIdemKey r.payload = r.idemKey ∧ parseIdemKey r'.payload = r'.idemKey
    ∧ ∀ (s : SessionShared) (opens : List (Nat × Bytes)), s.idemIndex = ∅ → OneKeyPerStream opens →
        ∀ (i j sid sid' : Nat), opens[i]? = some (sid, r.payload) →
          opens[j]? = some (sid', r'.payload) →
          (bookOpens s opens).2[i]? ≠ (bookOpens s opens).2[j]?

/-- **Distinct requests stay distinct, if they are plain and only then.** -/
theorem requests_kept_apart_iff (r r' : OpenRequest) (hne : r.idemKey ≠ r'.idemKey) :
    KeptApart r r' ↔ r.Plain ∧ r'.Plain := by
  rw [KeptApart, ← parseIdemKey_payload_iff r, ← parseIdemKey_payload_iff r']
  refine ⟨fun h => ⟨h.1, h.2.1⟩, fun ⟨hkey, hkey'⟩ => ⟨hkey, hkey', ?_⟩⟩
  intro s opens hempty hone i j sid sid' hi hj heq
  have hnone : ∀ key : String, s.idemIndex[key]? = none := fun key => by
    rw [hempty, ExtTreeMap.getElem?_empty]
  have hinj : IdemInjective (bookOpens s opens).1 :=
    bookOpens_injective hone (fun key _ _ h => absurd h (by simp [hnone key]))
      (fun key _ h => absurd h (by simp [hnone key]))
  obtain ⟨-, hbooked⟩ := bookOpens_booked s opens
  obtain ⟨taken, hi', hindex⟩ := hbooked i _ hi
  obtain ⟨taken', hj', hindex'⟩ := hbooked j _ hj
  rw [hi', hj', Option.some.injEq] at heq
  subst heq
  have hsame := hinj _ _ taken hindex hindex'
  exact hne (by rw [← hkey, ← hkey', hsame])

def getWith (name value : String) : HttpRequestInit where
  method := "GET"
  path := "/"
  headers := [{ name := name, value := value }]
  body := []

theorem requests_kept_apart_get :
    KeptApart (.http (getWith "accept" "*/*") (.ofNat 16 1))
      (.http (getWith "accept" "*/*") (.ofNat 16 2)) :=
  (requests_kept_apart_iff _ _ (by decide)).mpr ⟨by decide, by decide⟩

/-- A header's value is the name of the key: both requests get a key made up from the length
of their metadata, and the second one is taken for the stream of the first. -/
theorem header_value_merges_requests :
    let r := OpenRequest.http (getWith "x-sort-by" "idempotencyKey") (.ofNat 16 1)
    let r' := OpenRequest.http (getWith "x-sort-by" "idempotencyKey") (.ofNat 16 2)
    r.idemKey ≠ r'.idemKey
      ∧ (bookOpens (.new (.ofNat 16 1) (.ofNat 16 2) false .default)
          [(1, r.payload), (3, r'.payload)]).2 = [1, 1]
      ∧ ¬KeptApart r r' := by
  refine ⟨by decide +kernel, by decide +kernel, fun h => ?_⟩
  exact absurd ((parseIdemKey_payload_iff _).mp h.1) (by decide)

end Dweb
