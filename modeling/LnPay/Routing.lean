/-
# Addresses of the user app (`customer/src/routing.ts`, `shared/src/nip69.ts`)

The screen that is open is in the query of the address: a reload, a
notification and a link from another order book all read it back.  An order
carries its own address in the `source` tag.
-/
import LnPay.FormUrl
import LnPay.OcOrder

namespace LnPay

/-- `Track`. -/
inductive Track
  | ln
  | onchain
  deriving DecidableEq, Repr

/-- `Tab`. -/
inductive Tab
  | request
  | fulfill
  | history
  deriving DecidableEq, Repr

/-- The source's words for the tracks. -/
def Track.text : Track → String
  | .ln => "ln"
  | .onchain => "onchain"

/-- The source's words for the tabs. -/
def Tab.text : Tab → String
  | .request => "request"
  | .fulfill => "fulfill"
  | .history => "history"

/-- `DEFAULT_TRACK`. -/
def defaultTrack : Track := .ln

/-- `DEFAULT_TAB`. -/
def defaultTab : Tab := .fulfill

/-- `Route`. -/
structure Route where
  track : Track
  tab : Tab
  orderId : Option String
  deriving DecidableEq, Repr

/-- `parseRoute`: an old link has the track in the place of the tab. -/
def parseRoute (utf8 : FormUrl.Utf8) (search : List Char) : Route :=
  let params := utf8.parse search
  let rawTab := params.lookup "tab"
  { track := if params.lookup "track" = some "onchain" ∨ rawTab = some "onchain" then .onchain
      else defaultTrack
    tab := if rawTab = some "request" then .request
      else if rawTab = some "fulfill" then .fulfill
      else if rawTab = some "history" then .history
      else defaultTab
    orderId := given (params.lookup "order") }

/-- The query that `urlFor` builds. -/
def routeParams (r : Route) : List (String × String) :=
  (if r.track ≠ defaultTrack then [("track", r.track.text)] else []) ++
    (if r.tab ≠ defaultTab then [("tab", r.tab.text)] else []) ++
    ((given r.orderId).map fun id => ("order", id)).toList

/-- The search part of the address of `urlFor`. -/
def searchFor (r : Route) : List Char :=
  let query := FormUrl.serialize (routeParams r)
  if query = [] then [] else '?' :: query

/-- `urlFor`. -/
def urlFor (r : Route) : List Char := '/' :: searchFor r

/-- The search part of `orderLink`. -/
def orderSearch (track : Track) (orderId : String) : List Char :=
  '?' :: FormUrl.serialize
    ((if track = .onchain then [("track", "onchain")] else []) ++ [("order", orderId)])

/-- `orderLink`: the Lightning track is the default and is not named. -/
def orderLink (appUrl : String) (track : Track) (orderId : String) : String :=
  String.ofList ((appUrl.toList.reverse.dropWhile (· = '/')).reverse ++
    '/' :: orderSearch track orderId)

@[simp] theorem given_given (s : Option String) : given (given s) = given s := by
  unfold given
  rw [Option.filter_filter]
  simp

/-- The query of an address is what it was built from. -/
theorem parse_searchFor (utf8 : FormUrl.Utf8) (r : Route) :
    utf8.parse (searchFor r) = routeParams r := by
  obtain ⟨h, hmark⟩ := FormUrl.parse_serialize utf8 (routeParams r)
  unfold searchFor
  by_cases hempty : FormUrl.serialize (routeParams r) = []
  · rw [if_pos hempty, ← hempty]
    exact h
  · rw [if_neg hempty]
    exact hmark

/-- **A reload keeps the screen**: the address of every screen reads back as that screen, and the
link of every order opens that order on its track. -/
theorem parseRoute_urlFor (utf8 : FormUrl.Utf8) (r : Route) (track : Track) (orderId : String) :
    parseRoute utf8 (searchFor r) = { r with orderId := given r.orderId } ∧
      parseRoute utf8 (orderSearch track orderId) = ⟨track, defaultTab, given (some orderId)⟩ := by
  constructor
  · obtain ⟨track, tab, id⟩ := r
    simp only [parseRoute, parse_searchFor, routeParams]
    have hgiven := given_given id
    cases hid : given id <;> rw [hid] at hgiven <;> cases track <;> cases tab <;>
      simp [defaultTrack, defaultTab, Track.text, Tab.text, List.lookup_cons, hgiven]
  · simp only [parseRoute, orderSearch, (FormUrl.parse_serialize utf8 _).2]
    cases track <;> simp [defaultTrack, defaultTab, List.lookup_cons]

end LnPay
