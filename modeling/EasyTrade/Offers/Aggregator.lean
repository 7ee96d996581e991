import EasyTrade.Offers.OfferService

/-!
# The aggregator

A platform asks the offer service for its offers, in JSON or in XML, and gives up after
too many failures in a row.
-/

namespace EasyTrade.Offers

/-! ## Reading a response -/

inductive MimeType
  | json
  | xml
  deriving DecidableEq

def MimeType.text : MimeType → String
  | json => "application/json"
  | xml => "application/xml"

/-- The characters that an XML document may contain. -/
def isXmlChar (c : Char) : Bool :=
  c = '\t' || c = '\n' || c = '\r' || (0x20 ≤ c.toNat && c.toNat ≤ 0xd7ff) ||
    (0xe000 ≤ c.toNat && c.toNat ≤ 0xfffd) || 0x10000 ≤ c.toNat

/-- An XML reader turns every end of a line into a newline. -/
def normalizeLines : List Char → List Char
  | [] => []
  | '\r' :: '\n' :: rest => '\n' :: normalizeLines rest
  | '\r' :: rest => '\n' :: normalizeLines rest
  | c :: rest => c :: normalizeLines rest

/-- A text after it has been written and read in the given format. -/
def MimeType.received : MimeType → String → String
  | json, text => text
  | xml, text => String.ofList (normalizeLines text.toList)

structure Offer where
  platform : String
  quoteFor : String
  packages : List Package
  products : List Product
  deriving DecidableEq

/-- `offerPackage`, whose price is a `float32`. -/
def MimeType.offerPackage (mimeType : MimeType) (runtime : Runtime) (p : Package) : Package where
  id := p.id
  name := mimeType.received p.name
  price := runtime.float32 p.price
  support := mimeType.received p.support

/-- `offerProduct`, whose price per transaction is a `float32`. -/
def MimeType.offerProduct (mimeType : MimeType) (runtime : Runtime) (p : Product) : Product where
  id := p.id
  name := mimeType.received p.name
  ppt := runtime.float32 p.ppt
  currency := mimeType.received p.currency

def MimeType.offer (mimeType : MimeType) (runtime : Runtime) (data : OfferData) : Offer where
  platform := mimeType.received data.platform
  quoteFor := mimeType.received data.quoteFor
  packages := data.packages.map (mimeType.offerPackage runtime)
  products := data.products.map (mimeType.offerProduct runtime)

def OfferData.texts (data : OfferData) : List String :=
  data.platform :: data.quoteFor :: (data.packages.flatMap (fun p => [p.name, p.support]) ++
    data.products.flatMap (fun p => [p.name, p.currency]))

inductive ProviderError
  | request
  | noResponse
  | statusCode (code : ℕ)
  | body
  deriving DecidableEq

def parseResponse (runtime : Runtime) (body : Body) (mimeType : MimeType) :
    Except ProviderError Offer :=
  match mimeType, body with
  | .json, .json data => .ok (MimeType.json.offer runtime data)
  | .xml, .xml data =>
    if data.texts.all fun text => text.toList.all isXmlChar then
      .ok (MimeType.xml.offer runtime data)
    else .error .body
  | .json, .xml _ => .error .body
  | .xml, .json _ => .error .body

/-! ## Asking for offers -/

/-- The request that `getOffers` sends.  `URL.Query` gives a copy of the URL's query, and
the filters are added to the copy. -/
def offersRequest (runtime : Runtime) (platformName productFilter : String)
    (maxYearlyFeeFilter : ℚ) (mimeType : MimeType) : Option Request := do
  let url ← runtime.url platformName
  let req : Request := ⟨url, some mimeType.text⟩
  let _q := req.url.query ++ [("productFilter", productFilter),
    ("maxYearlyFeeFilter", runtime.sprint maxYearlyFeeFilter)]
  return req

structure OfferResult where
  offer : Offer
  requestDuration : ℤ

/-- `getOffers` of the connector, with the service's answer to a request and the time it
takes. -/
def connectorGetOffers (runtime : Runtime) (answer : Request → Option (Response × ℤ))
    (platformName productFilter : String) (maxYearlyFeeFilter : ℚ) (mimeType : MimeType) :
    Except ProviderError OfferResult :=
  match offersRequest runtime platformName productFilter maxYearlyFeeFilter mimeType with
  | none => .error .request
  | some req =>
    match answer req with
    | none => .error .noResponse
    | some (resp, duration) =>
      if resp.status ≠ 200 then .error (.statusCode resp.status)
      else (parseResponse runtime resp.body mimeType).map fun offer => ⟨offer, duration⟩

structure PlatformConfig where
  name : String
  filter : String
  maxFee : ℚ
  requestTimeLimit : ℤ
  consecutiveFailLimit : ℤ

structure Platform extends PlatformConfig where
  consecutiveFailCounter : ℤ

inductive CheckError
  | provider (error : ProviderError) (limitExceeded : Bool)
  | failCounterLimitExceeded
  deriving DecidableEq

def Platform.CheckOffers (p : Platform) (runtime : Runtime)
    (answer : Request → Option (Response × ℤ)) (useXml : Bool) :
    Except CheckError Offer × Platform :=
  match connectorGetOffers runtime answer p.name p.filter p.maxFee
      (if useXml then .xml else .json) with
  | .error error =>
    let consecutiveFailCounter := p.consecutiveFailCounter + 1
    (.error (.provider error (p.consecutiveFailLimit ≤ consecutiveFailCounter)),
      { p with consecutiveFailCounter })
  | .ok offerResult =>
    let consecutiveFailCounter :=
      if p.requestTimeLimit ≤ offerResult.requestDuration then p.consecutiveFailCounter + 1
      else 0
    if p.consecutiveFailLimit ≤ consecutiveFailCounter then
      (.error .failCounterLimitExceeded, { p with consecutiveFailCounter })
    else (.ok offerResult.offer, { p with consecutiveFailCounter })

/-- The offer service of a manager that holds the catalogue.  `duration` is how long it
takes to answer, and `none` when the request does not come through. -/
def Catalogue.answer (catalogue : Catalogue) (runtime : Runtime) (duration : Option ℤ)
    (req : Request) : Option (Response × ℤ) := do
  let duration ← duration
  let response ← getOffers runtime (some catalogue.packages.rows)
    (some catalogue.products.rows) req
  return (response, duration)

/-! ## What a platform should get -/

/-- The filters that a configuration gives: a JSON list of names, a fee, or both. -/
structure Restriction (runtime : Runtime) (config : PlatformConfig) where
  productNames : Option (List String)
  maxYearlyFee : Option ℚ
  parse_filter : ∀ names ∈ productNames, runtime.parse config.filter = some names
  maxFee_eq : ∀ fee ∈ maxYearlyFee, config.maxFee = fee

namespace Restriction

variable {runtime : Runtime} {config : PlatformConfig} (restriction : Restriction runtime config)

def admitsProduct (p : Product) : Bool :=
  match restriction.productNames with
  | none => true
  | some names => names.contains p.name

def admitsPackage (p : Package) : Bool :=
  match restriction.maxYearlyFee with
  | none => true
  | some fee => p.price ≤ fee

/-- The offer holds exactly what the filters admit, in the manager's order. -/
structure Describes (catalogue : Catalogue) (mimeType : MimeType) (offer : Offer) : Prop where
  products : offer.products = (catalogue.products.rows.filter restriction.admitsProduct).map
    (mimeType.offerProduct runtime)
  packages : offer.packages = (catalogue.packages.rows.filter restriction.admitsPackage).map
    (mimeType.offerPackage runtime)

end Restriction

end EasyTrade.Offers
