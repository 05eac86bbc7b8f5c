import V2G.Schema.Field

/-!
# Parking elements

Check-in and check-out of a vehicle at a wireless charging place.
-/

namespace V2G.Declared

open V2G.Field

def targetPosition : List Field :=
  [ mandatory "target_offset_x" "targetOffsetX" .uint16,
    mandatory "target_offset_y" "targetOffsetY" .uint16 ]

def vehicleCheckInReq : List Field :=
  [ mandatory "ev_check_in_status" "evCheckInStatus" (.token .evCheckInStatus),
    optional "parking_method" "parkingMethod" (.token .parkingMethod) ]

def vehicleCheckInRes : List Field :=
  [ mandatory "vehicle_space" "vehicleSpace" .uint32,
    optional "target_offset" "targetOffset" (.element .targetPosition) ]

def vehicleCheckOutReq : List Field :=
  [ mandatory "ev_check_out_status" "evCheckOutStatus" (.token .evCheckOutStatus),
    mandatory "check_out_time" "checkOutTime" .uint64 ]

def vehicleCheckOutRes : List Field :=
  [ mandatory "evse_check_out_status" "evseCheckOutStatus" (.token .evseCheckOutStatus) ]

end V2G.Declared
