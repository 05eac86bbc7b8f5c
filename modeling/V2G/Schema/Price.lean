import V2G.Schema.Field

/-!
# Price elements

Absolute price schedules and price levels. The entries of a schedule are ordered,
tax and overstay rules are not.
-/

namespace V2G.Declared

open V2G.Field

def evPriceRule : List Field :=
  [ mandatory "energy_fee" "energyFee" .rational,
    mandatory "power_range_start" "powerRangeStart" .rational ]

def evPriceRuleStack : List Field :=
  [ mandatory "duration" "duration" .uint32,
    mandatoryMany "ev_price_rules" "evPriceRules" (.list (.element .evPriceRule) 1 8) ]

def evAbsolutePriceSchedule : List Field :=
  [ mandatory "time_anchor" "timeAnchor" .uint64,
    mandatory "currency" "currency" (.text 1 (some 3)),
    mandatory "price_algorithm" "priceAlgorithm" .identifierType,
    mandatoryMany "ev_price_rule_stacks" "evPriceRuleStacks"
        (.list (.element .evPriceRuleStack) 1 1024) ]

def priceLevelScheduleEntry : List Field :=
  [ mandatory "duration" "duration" .uint32,
    mandatory "price_level" "priceLevel" .uint8 ]

def priceLevelSchedule : List Field :=
  [ optional "id" "id" .identifierType,
    mandatory "time_anchor" "timeAnchor" .uint64,
    mandatory "schedule_id" "priceScheduleId" .numericIdType,
    optional "schedule_description" "priceScheduleDescription" .descriptionType,
    mandatory "num_price_levels" "numberOfPriceLevels" .uint8,
    mandatoryMany "entries" "priceLevelScheduleEntries"
        (.list (.element .priceLevelScheduleEntry) 1 1024) ]

def taxRule : List Field :=
  [ mandatory "tax_rule_id" "taxRuleId" .numericIdType,
    optional "tax_rule_name" "taxRuleName" .nameType,
    mandatory "tax_rate" "taxRate" .rational,
    optional "tax_included_in_price" "taxIncludedInPrice" .bool,
    mandatory "applies_to_energy_fee" "appliesToEnergyFee" .bool,
    mandatory "applies_to_parking_fee" "appliesToParkingFee" .bool,
    mandatory "applies_to_overstay_fee" "appliesToOverstayFee" .bool,
    mandatory "applies_to_min_max_cost" "appliesMinimumMaximumCost" .bool ]

def priceRule : List Field :=
  [ mandatory "energy_fee" "energyFee" .rational,
    optional "parking_fee" "parkingFee" .rational,
    optional "parking_fee_period" "parkingFeePeriod" .uint32,
    optional "carbon_dioxide_emission" "carbonDioxideEmission" .uint16,
    optional "renewable_energy_percentage" "renewableGenerationPercentage" .uint8,
    mandatory "power_range_start" "powerRangeStart" .rational ]

def priceRuleStack : List Field :=
  [ mandatory "duration" "duration" .uint32,
    mandatoryMany "price_rules" "priceRules" (.list (.element .priceRule) 1 8) ]

def overstayRule : List Field :=
  [ optional "description" "overstayRuleDescription" .descriptionType,
    mandatory "start_time" "startTime" .uint32,
    mandatory "fee" "overstayFee" .rational,
    mandatory "fee_period" "overstayFeePeriod" .uint32 ]

def overstayRules : List Field :=
  [ optional "time_threshold" "overstayTimeThreshold" .uint32,
    optional "power_threshold" "overstayPowerThreshold" .rational,
    mandatoryMany "rules" "overstayRules" (.set (.element .overstayRule) 1 5) ]

def additionalService : List Field :=
  [ mandatory "service_name" "serviceName" .nameType,
    mandatory "service_fee" "serviceFee" .rational ]

def absolutePriceSchedule : List Field :=
  [ optional "id" "id" .identifierType,
    mandatory "time_anchor" "timeAnchor" .uint64,
    mandatory "schedule_id" "priceScheduleId" .numericIdType,
    optional "schedule_description" "priceScheduleDescription" .descriptionType,
    mandatory "currency" "currency" (.text 1 (some 3)),
    mandatory "language" "language" (.text 1 (some 3)),
    mandatory "price_algorithm" "priceAlgorithm" .identifierType,
    optional "min_cost" "minimumCost" .rational,
    optional "max_cost" "maximumCost" .rational,
    optionalMany "tax_rules" "taxRules" (.set (.element .taxRule) 0 10),
    mandatoryMany "price_rule_stacks" "priceRuleStacks" (.list (.element .priceRuleStack) 1 1024),
    optional "overstay_rules" "overstayRules" (.element .overstayRules),
    optionalMany "additional_services" "additionalSelectedServices"
        (.set (.element .additionalService) 0 5) ]

end V2G.Declared

namespace V2G.Group

def priceSchedule : Group where
  name := "PriceSchedule"
  members :=
    [ ⟨"absolute_price_schedule", "absolutePriceSchedule", .element .absolutePriceSchedule⟩,
      ⟨"price_level_schedule", "priceLevelSchedule", .element .priceLevelSchedule⟩ ]
  required := false

end V2G.Group
