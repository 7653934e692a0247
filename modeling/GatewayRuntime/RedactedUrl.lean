import GatewayRuntime.Lib.GoBytes
import GatewayRuntime.Lib.GoQuery

/-!
# Redacted URLs

`RedactedURL` of `internal/httpx/middleware/redact.go`, which writes the URL of a request for
the access log.

The loop over the parsed query sets every sensitive key to one fixed value while it visits the
map.  It adds no key, so every order of the keys gives the same map (`lookup_redactQuery`).  The
written URL is a function of this map and of the parts that are not the query: it does not
depend on a sensitive value, and its query is the map (`redacted_url_law`).
-/

namespace GatewayRuntime
namespace Middleware

open GoQuery GoText

section Model

/-- `strings.ToLower` on a string of bytes. -/
structure ByteLower where
  lower : String → String
  lower_ascii : ∀ s, isASCII s = true → lower s = toLower s

def sensitiveQueryKeys : List String :=
  ["access_token", "refresh_token", "id_token", "code", "client_secret", "token", "signature",
    "x-amz-signature"]

def redactedValue : String :=
  "[REDACTED]"

/-- The key is sensitive. -/
def sensitive (bytes : ByteLower) (key : String) : Bool :=
  sensitiveQueryKeys.contains (bytes.lower key)

/-- One round of the loop: `q.Set(key, "[REDACTED]")` for a sensitive key. -/
def redactKey (bytes : ByteLower) (q : Values) (key : String) : Values :=
  if sensitive bytes key then q.insert key [redactedValue] else q

/-- The loop, for an order in which the keys are visited. -/
def redactQuery (bytes : ByteLower) (order : List String) (q : Values) : Values :=
  order.foldl (redactKey bytes) q

/-- `URL.Query`, for a limit on the number of parameters. -/
def query (limit : Option Nat) (u : RequestURL) : Values :=
  parseQuery limit u.rawQuery

/-- `RedactedURL`. -/
def redactedURL
    (limit : Option Nat) (bytes : ByteLower) (order : List String) :
    Option RequestURL → String
  | none => ""
  | some u =>
      { u with rawQuery := encode (redactQuery bytes order (query limit u)) }.text

end Model

section Loop

variable {limit : Option Nat} {bytes : ByteLower} {order : List String} {q : Values}

/-- The entries after some rounds, by induction on the keys visited. -/
theorem lookup_foldl_redactKey (order : List String) (q : Values) (key : String) :
    (redactQuery bytes order q).lookup key =
      if key ∈ order ∧ sensitive bytes key = true then some [redactedValue] else q.lookup key := by
  induction order generalizing q with
  | nil =>
      simp [redactQuery]
  | cons k order ih =>
      have hstep : redactQuery bytes (k :: order) q =
          redactQuery bytes order (redactKey bytes q k) := rfl
      rw [hstep, ih]
      by_cases hk : key = k
      · subst hk
        by_cases hsensitive : sensitive bytes key = true
        · simp [redactKey, hsensitive]
        · simp [redactKey, hsensitive]
      · have hround : (redactKey bytes q k).lookup key = q.lookup key := by
          unfold redactKey
          split_ifs
          · exact AList.lookup_insert_ne hk
          · rfl
        simp [hround, hk]

/-- The map after the loop, whatever the order. -/
theorem lookup_redactQuery (horder : order.Perm q.keys) (key : String) :
    (redactQuery bytes order q).lookup key =
      if sensitive bytes key = true then (q.lookup key).map fun _ => [redactedValue]
      else q.lookup key := by
  have hmem : key ∈ order ↔ key ∈ q := by
    rw [horder.mem_iff, AList.mem_keys]
  simp only [lookup_foldl_redactKey, hmem]
  by_cases hsensitive : sensitive bytes key = true
  · cases hlookup : q.lookup key with
    | none =>
        have hnot : key ∉ q := AList.lookup_eq_none.mp hlookup
        simp [hnot]
    | some values =>
        have hin : key ∈ q := AList.lookup_isSome.mp (by simp [hlookup])
        simp [hin, hsensitive]
  · simp [hsensitive]

theorem mem_redactQuery (bytes : ByteLower) (horder : order.Perm q.keys) (key : String) :
    key ∈ redactQuery bytes order q ↔ key ∈ q := by
  rw [← AList.lookup_isSome, ← AList.lookup_isSome, lookup_redactQuery horder]
  split_ifs <;> simp

theorem filled_redactQuery (horder : order.Perm q.keys) (hfilled : Filled q) :
    Filled (redactQuery bytes order q) := by
  intro key values hvalues
  rw [lookup_redactQuery horder] at hvalues
  split_ifs at hvalues
  · obtain ⟨_, _, rfl⟩ := Option.map_eq_some_iff.mp hvalues
    simp
  · exact hfilled key values hvalues

/-- No list of values gets longer. -/
theorem length_redactQuery_le
    (horder : order.Perm q.keys) (hfilled : Filled q) (key : String) :
    (valuesOf (redactQuery bytes order q) key).length ≤ (valuesOf q key).length := by
  rw [valuesOf, valuesOf, lookup_redactQuery horder]
  split_ifs
  · cases hlookup : q.lookup key with
    | none => simp
    | some values =>
        exact List.length_pos_of_ne_nil (hfilled key values hlookup)
  · exact le_refl _

end Loop

section Redaction

variable (limit : Option Nat) (bytes : ByteLower)

/-- The URLs are equal except for the values that sensitive keys carry. -/
structure EqualButSecrets (u u' : RequestURL) : Prop where
  other : { u with rawQuery := "" } = { u' with rawQuery := "" }
  keys : ∀ key, key ∈ query limit u ↔ key ∈ query limit u'
  values : ∀ key, sensitive bytes key = false →
    (query limit u).lookup key = (query limit u').lookup key

/-- What a query is to be written as. -/
def Redacts (q q' : Values) : Prop :=
  ∀ key, q'.lookup key =
    if sensitive bytes key = true then (q.lookup key).map fun _ => [redactedValue]
    else q.lookup key

/-- What holds of the URLs in the access log, in every order of the loop. -/
structure RedactedUrlLaw : Prop where
  hidden : ∀ u u' order order', EqualButSecrets limit bytes u u' →
    order.Perm (query limit u).keys → order'.Perm (query limit u').keys →
    redactedURL limit bytes order (some u) = redactedURL limit bytes order' (some u')
  readable : ∀ u order, order.Perm (query limit u).keys →
    Redacts bytes (query limit u)
      (parseQuery limit (queryText (redactedURL limit bytes order (some u))))

variable {limit bytes}

/-- The redacted maps of two such URLs have the same entries. -/
theorem lookup_redactQuery_congr
    {u u' : RequestURL} {order order' : List String}
    (h : EqualButSecrets limit bytes u u')
    (horder : order.Perm (query limit u).keys)
    (horder' : order'.Perm (query limit u').keys)
    (key : String) :
    (redactQuery bytes order (query limit u)).lookup key =
      (redactQuery bytes order' (query limit u')).lookup key := by
  rw [lookup_redactQuery horder, lookup_redactQuery horder']
  by_cases hsensitive : sensitive bytes key = true
  · have hkeys := h.keys key
    rw [← AList.lookup_isSome, ← AList.lookup_isSome] at hkeys
    rw [if_pos hsensitive, if_pos hsensitive]
    -- only whether there is an entry counts
    cases hlookup : (query limit u).lookup key with
    | none =>
        cases hlookup' : (query limit u').lookup key with
        | none => rfl
        | some _ => simp [hlookup, hlookup'] at hkeys
    | some _ =>
        cases hlookup' : (query limit u').lookup key with
        | none => simp [hlookup, hlookup'] at hkeys
        | some _ => rfl
  · rw [if_neg hsensitive, if_neg hsensitive]
    exact h.values key (by simpa using hsensitive)

theorem redactedURL_congr
    {u u' : RequestURL} {order order' : List String}
    (h : EqualButSecrets limit bytes u u')
    (horder : order.Perm (query limit u).keys)
    (horder' : order'.Perm (query limit u').keys) :
    redactedURL limit bytes order (some u) = redactedURL limit bytes order' (some u') := by
  have hencode : encode (redactQuery bytes order (query limit u)) =
      encode (redactQuery bytes order' (query limit u')) :=
    encode_congr (lookup_redactQuery_congr h horder horder')
  have hother := congrArg (fun v : RequestURL =>
    { v with rawQuery := encode (redactQuery bytes order (query limit u)) }.text) h.other
  simp only [redactedURL, ← hencode]
  exact hother

theorem redacts_redactedURL
    {u : RequestURL} {order : List String}
    (horder : order.Perm (query limit u).keys) :
    Redacts bytes (query limit u)
      (parseQuery limit (queryText (redactedURL limit bytes order (some u)))) := by
  have hfilled : Filled (query limit u) := filled_parseQuery limit u.rawQuery
  have hlength := length_pairsOf_le (mem_redactQuery bytes horder)
    fun key => length_redactQuery_le horder hfilled key
  have hwithin : Within limit (pairsOf (redactQuery bytes order (query limit u))).length := by
    intro n hn
    exact hlength.trans (within_length_pairsOf_parseQuery limit u.rawQuery n hn)
  intro key
  rw [redactedURL, RequestURL.queryText_text,
    lookup_parseQuery_encode (filled_redactQuery horder hfilled) hwithin,
    lookup_redactQuery horder]

/-- **The access log shows no secret.**  URLs that differ only in the values of sensitive keys
are written alike, and the written query is the query with these values replaced. -/
theorem redacted_url_law (limit : Option Nat) (bytes : ByteLower) :
    RedactedUrlLaw limit bytes where
  hidden := fun _ _ _ _ h horder horder' => redactedURL_congr h horder horder'
  readable := fun _ _ horder => redacts_redactedURL horder

theorem not_mem_empty : '?' ∉ "".toList := by
  simp

/-- The callback of a login. -/
def callbackURL : RequestURL where
  scheme := ""
  opaqueText := ""
  user := none
  host := ""
  url := ⟨"/callback", ""⟩
  omitHost := false
  forceQuery := false
  rawQuery := "state=a%20b&CODE=secret&state=c&CODE=second"
  scheme_plain := not_mem_empty
  opaqueText_plain := not_mem_empty

-- one key in upper case, both keys repeated
example :
    redactedURL none ⟨toLower, fun _ _ => rfl⟩ ["state", "CODE"] (some callbackURL) =
      "/callback?CODE=%5BREDACTED%5D&state=a+b&state=c" := by
  decide +kernel

end Redaction

end Middleware
end GatewayRuntime
