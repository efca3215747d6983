import HapRust.Model.Uuid

/-! The characteristic types that HAP defines, from the generated tables: under which UUID
each is known, and the format its value has unless the accessory says otherwise. -/

namespace HapRust.Model
open Ble (CharFormat)

inductive CharacteristicName where
  | administratorOnlyAccess | audioFeedback | brightness | coolingThresholdTemperature
  | currentDoorState | currentHeatingCoolingState | currentRelativeHumidity | currentTemperature
  | heatingThresholdTemperature | hue | identify | lockControlPoint
  | lockManagementAutoSecurityTimeout | lockLastKnownAction | lockCurrentState | lockTargetState
  | logs | manufacturer | model | motionDetected | name | obstructionDetected | on | outletInUse
  | rotationDirection | rotationSpeed | saturation | serialNumber | targetDoorState
  | targetHeatingCoolingState | targetRelativeHumidity | targetTemperature
  | temperatureDisplayUnits | version | pairSetup | pairVerify | pairingFeatures | pairingPairings
  | firmwareRevision | hardwareRevision | airParticulateDensity | airParticulateSize
  | securitySystemCurrentState | securitySystemTargetState | batteryLevel | carbonMonoxideDetected
  | contactSensorState | currentAmbientLightLevel | currentHorizontalTiltAngle | currentPosition
  | currentVerticalTiltAngle | holdPosition | leakDetected | occupancyDetected | positionState
  | programmableSwitchEvent | statusActive | smokeDetected | statusFault | statusJammed
  | statusLowBattery | statusTampered | targetHorizontalTiltAngle | targetPosition
  | targetVerticalTiltAngle | securitySystemAlarmType | chargingState | carbonMonoxideLevel
  | carbonMonoxidePeakLevel | carbonDioxideDetected | carbonDioxideLevel | carbonDioxidePeakLevel
  | airQuality | accessoryFlags | lockPhysicalControls | targetAirPurifierState
  | currentAirPurifierState | currentSlatState | filterLifeLevel | filterChangeIndication
  | resetFilterIndication | targetAirQuality | currentFanState | active | currentHeaterCoolerState
  | targetHeaterCoolerState | currentHumidifierDehumidifierState
  | targetHumidifierDehumidifierState | waterLevel | swingMode | targetSlatState | targetFanState
  | slatType | currentTiltAngle | targetTiltAngle | ozoneDensity | nitrogenDioxideDensity
  | sulphurDioxideDensity | pm25Density | pm10Density | vocDensity
  | relativeHumidityDehumidifierThreshold | relativeHumidityHumidifierThreshold
  | serviceLabelIndex | serviceLabelNamespace | colorTemperature | programMode | inUse
  | setDuration | remainingDuration | valveType | isConfigured | supportedVideoStreamConfiguration
  | supportedAudioStreamConfiguration | supportedRtpConfiguration | selectedRtpStreamConfiguration
  | setupEndpoints | volume | mute | nightVision | opticalZoom | digitalZoom | imageRotation
  | imageMirroring | streamingStatus | threadNodeCapabilities | threadStatus
  deriving DecidableEq, Repr

inductive CharacteristicType where
  | named (which : CharacteristicName)
  | unknown (uuid : Uuid)
  deriving DecidableEq, Repr

structure CharacteristicRow where
  full : String
  name : CharacteristicName
  format : CharFormat

def characteristicRows : List CharacteristicRow := [
  ⟨"00000001-0000-1000-8000-0026bb765291", .administratorOnlyAccess, .bool⟩,
  ⟨"00000005-0000-1000-8000-0026bb765291", .audioFeedback, .bool⟩,
  ⟨"00000008-0000-1000-8000-0026bb765291", .brightness, .int⟩,
  ⟨"0000000d-0000-1000-8000-0026bb765291", .coolingThresholdTemperature, .float⟩,
  ⟨"0000000e-0000-1000-8000-0026bb765291", .currentDoorState, .uint8⟩,
  ⟨"0000000f-0000-1000-8000-0026bb765291", .currentHeatingCoolingState, .uint8⟩,
  ⟨"00000010-0000-1000-8000-0026bb765291", .currentRelativeHumidity, .float⟩,
  ⟨"00000011-0000-1000-8000-0026bb765291", .currentTemperature, .float⟩,
  ⟨"00000012-0000-1000-8000-0026bb765291", .heatingThresholdTemperature, .float⟩,
  ⟨"00000013-0000-1000-8000-0026bb765291", .hue, .float⟩,
  ⟨"00000014-0000-1000-8000-0026bb765291", .identify, .bool⟩,
  ⟨"00000019-0000-1000-8000-0026bb765291", .lockControlPoint, .tlv8⟩,
  ⟨"0000001a-0000-1000-8000-0026bb765291", .lockManagementAutoSecurityTimeout, .uint32⟩,
  ⟨"0000001c-0000-1000-8000-0026bb765291", .lockLastKnownAction, .uint8⟩,
  ⟨"0000001d-0000-1000-8000-0026bb765291", .lockCurrentState, .uint8⟩,
  ⟨"0000001e-0000-1000-8000-0026bb765291", .lockTargetState, .uint8⟩,
  ⟨"0000001f-0000-1000-8000-0026bb765291", .logs, .tlv8⟩,
  ⟨"00000020-0000-1000-8000-0026bb765291", .manufacturer, .string⟩,
  ⟨"00000021-0000-1000-8000-0026bb765291", .model, .string⟩,
  ⟨"00000022-0000-1000-8000-0026bb765291", .motionDetected, .bool⟩,
  ⟨"00000023-0000-1000-8000-0026bb765291", .name, .string⟩,
  ⟨"00000024-0000-1000-8000-0026bb765291", .obstructionDetected, .bool⟩,
  ⟨"00000025-0000-1000-8000-0026bb765291", .on, .bool⟩,
  ⟨"00000026-0000-1000-8000-0026bb765291", .outletInUse, .bool⟩,
  ⟨"00000028-0000-1000-8000-0026bb765291", .rotationDirection, .int⟩,
  ⟨"00000029-0000-1000-8000-0026bb765291", .rotationSpeed, .float⟩,
  ⟨"0000002f-0000-1000-8000-0026bb765291", .saturation, .float⟩,
  ⟨"00000030-0000-1000-8000-0026bb765291", .serialNumber, .string⟩,
  ⟨"00000032-0000-1000-8000-0026bb765291", .targetDoorState, .uint8⟩,
  ⟨"00000033-0000-1000-8000-0026bb765291", .targetHeatingCoolingState, .uint8⟩,
  ⟨"00000034-0000-1000-8000-0026bb765291", .targetRelativeHumidity, .float⟩,
  ⟨"00000035-0000-1000-8000-0026bb765291", .targetTemperature, .float⟩,
  ⟨"00000036-0000-1000-8000-0026bb765291", .temperatureDisplayUnits, .uint8⟩,
  ⟨"00000037-0000-1000-8000-0026bb765291", .version, .string⟩,
  ⟨"0000004c-0000-1000-8000-0026bb765291", .pairSetup, .tlv8⟩,
  ⟨"0000004e-0000-1000-8000-0026bb765291", .pairVerify, .tlv8⟩,
  ⟨"0000004f-0000-1000-8000-0026bb765291", .pairingFeatures, .uint8⟩,
  ⟨"00000050-0000-1000-8000-0026bb765291", .pairingPairings, .tlv8⟩,
  ⟨"00000052-0000-1000-8000-0026bb765291", .firmwareRevision, .string⟩,
  ⟨"00000053-0000-1000-8000-0026bb765291", .hardwareRevision, .string⟩,
  ⟨"00000064-0000-1000-8000-0026bb765291", .airParticulateDensity, .float⟩,
  ⟨"00000065-0000-1000-8000-0026bb765291", .airParticulateSize, .uint8⟩,
  ⟨"00000066-0000-1000-8000-0026bb765291", .securitySystemCurrentState, .uint8⟩,
  ⟨"00000067-0000-1000-8000-0026bb765291", .securitySystemTargetState, .uint8⟩,
  ⟨"00000068-0000-1000-8000-0026bb765291", .batteryLevel, .uint8⟩,
  ⟨"00000069-0000-1000-8000-0026bb765291", .carbonMonoxideDetected, .uint8⟩,
  ⟨"0000006a-0000-1000-8000-0026bb765291", .contactSensorState, .uint8⟩,
  ⟨"0000006b-0000-1000-8000-0026bb765291", .currentAmbientLightLevel, .float⟩,
  ⟨"0000006c-0000-1000-8000-0026bb765291", .currentHorizontalTiltAngle, .int⟩,
  ⟨"0000006d-0000-1000-8000-0026bb765291", .currentPosition, .uint8⟩,
  ⟨"0000006e-0000-1000-8000-0026bb765291", .currentVerticalTiltAngle, .int⟩,
  ⟨"0000006f-0000-1000-8000-0026bb765291", .holdPosition, .bool⟩,
  ⟨"00000070-0000-1000-8000-0026bb765291", .leakDetected, .uint8⟩,
  ⟨"00000071-0000-1000-8000-0026bb765291", .occupancyDetected, .uint8⟩,
  ⟨"00000072-0000-1000-8000-0026bb765291", .positionState, .uint8⟩,
  ⟨"00000073-0000-1000-8000-0026bb765291", .programmableSwitchEvent, .uint8⟩,
  ⟨"00000075-0000-1000-8000-0026bb765291", .statusActive, .bool⟩,
  ⟨"00000076-0000-1000-8000-0026bb765291", .smokeDetected, .uint8⟩,
  ⟨"00000077-0000-1000-8000-0026bb765291", .statusFault, .uint8⟩,
  ⟨"00000078-0000-1000-8000-0026bb765291", .statusJammed, .uint8⟩,
  ⟨"00000079-0000-1000-8000-0026bb765291", .statusLowBattery, .uint8⟩,
  ⟨"0000007a-0000-1000-8000-0026bb765291", .statusTampered, .uint8⟩,
  ⟨"0000007b-0000-1000-8000-0026bb765291", .targetHorizontalTiltAngle, .int⟩,
  ⟨"0000007c-0000-1000-8000-0026bb765291", .targetPosition, .uint8⟩,
  ⟨"0000007d-0000-1000-8000-0026bb765291", .targetVerticalTiltAngle, .int⟩,
  ⟨"0000008e-0000-1000-8000-0026bb765291", .securitySystemAlarmType, .uint8⟩,
  ⟨"0000008f-0000-1000-8000-0026bb765291", .chargingState, .uint8⟩,
  ⟨"00000090-0000-1000-8000-0026bb765291", .carbonMonoxideLevel, .float⟩,
  ⟨"00000091-0000-1000-8000-0026bb765291", .carbonMonoxidePeakLevel, .float⟩,
  ⟨"00000092-0000-1000-8000-0026bb765291", .carbonDioxideDetected, .uint8⟩,
  ⟨"00000093-0000-1000-8000-0026bb765291", .carbonDioxideLevel, .float⟩,
  ⟨"00000094-0000-1000-8000-0026bb765291", .carbonDioxidePeakLevel, .float⟩,
  ⟨"00000095-0000-1000-8000-0026bb765291", .airQuality, .uint8⟩,
  ⟨"000000a6-0000-1000-8000-0026bb765291", .accessoryFlags, .uint32⟩,
  ⟨"000000a7-0000-1000-8000-0026bb765291", .lockPhysicalControls, .uint8⟩,
  ⟨"000000a8-0000-1000-8000-0026bb765291", .targetAirPurifierState, .uint8⟩,
  ⟨"000000a9-0000-1000-8000-0026bb765291", .currentAirPurifierState, .uint8⟩,
  ⟨"000000aa-0000-1000-8000-0026bb765291", .currentSlatState, .uint8⟩,
  ⟨"000000ab-0000-1000-8000-0026bb765291", .filterLifeLevel, .float⟩,
  ⟨"000000ac-0000-1000-8000-0026bb765291", .filterChangeIndication, .uint8⟩,
  ⟨"000000ad-0000-1000-8000-0026bb765291", .resetFilterIndication, .uint8⟩,
  ⟨"000000ae-0000-1000-8000-0026bb765291", .targetAirQuality, .uint8⟩,
  ⟨"000000af-0000-1000-8000-0026bb765291", .currentFanState, .uint8⟩,
  ⟨"000000b0-0000-1000-8000-0026bb765291", .active, .uint8⟩,
  ⟨"000000b1-0000-1000-8000-0026bb765291", .currentHeaterCoolerState, .uint8⟩,
  ⟨"000000b2-0000-1000-8000-0026bb765291", .targetHeaterCoolerState, .uint8⟩,
  ⟨"000000b3-0000-1000-8000-0026bb765291", .currentHumidifierDehumidifierState, .uint8⟩,
  ⟨"000000b4-0000-1000-8000-0026bb765291", .targetHumidifierDehumidifierState, .uint8⟩,
  ⟨"000000b5-0000-1000-8000-0026bb765291", .waterLevel, .float⟩,
  ⟨"000000b6-0000-1000-8000-0026bb765291", .swingMode, .uint8⟩,
  ⟨"000000be-0000-1000-8000-0026bb765291", .targetSlatState, .uint8⟩,
  ⟨"000000bf-0000-1000-8000-0026bb765291", .targetFanState, .uint8⟩,
  ⟨"000000c0-0000-1000-8000-0026bb765291", .slatType, .uint8⟩,
  ⟨"000000c1-0000-1000-8000-0026bb765291", .currentTiltAngle, .int⟩,
  ⟨"000000c2-0000-1000-8000-0026bb765291", .targetTiltAngle, .int⟩,
  ⟨"000000c3-0000-1000-8000-0026bb765291", .ozoneDensity, .float⟩,
  ⟨"000000c4-0000-1000-8000-0026bb765291", .nitrogenDioxideDensity, .float⟩,
  ⟨"000000c5-0000-1000-8000-0026bb765291", .sulphurDioxideDensity, .float⟩,
  ⟨"000000c6-0000-1000-8000-0026bb765291", .pm25Density, .float⟩,
  ⟨"000000c7-0000-1000-8000-0026bb765291", .pm10Density, .float⟩,
  ⟨"000000c8-0000-1000-8000-0026bb765291", .vocDensity, .float⟩,
  ⟨"000000c9-0000-1000-8000-0026bb765291", .relativeHumidityDehumidifierThreshold, .float⟩,
  ⟨"000000ca-0000-1000-8000-0026bb765291", .relativeHumidityHumidifierThreshold, .float⟩,
  ⟨"000000cb-0000-1000-8000-0026bb765291", .serviceLabelIndex, .uint8⟩,
  ⟨"000000cd-0000-1000-8000-0026bb765291", .serviceLabelNamespace, .uint8⟩,
  ⟨"000000ce-0000-1000-8000-0026bb765291", .colorTemperature, .uint32⟩,
  ⟨"000000d1-0000-1000-8000-0026bb765291", .programMode, .uint8⟩,
  ⟨"000000d2-0000-1000-8000-0026bb765291", .inUse, .uint8⟩,
  ⟨"000000d3-0000-1000-8000-0026bb765291", .setDuration, .uint32⟩,
  ⟨"000000d4-0000-1000-8000-0026bb765291", .remainingDuration, .uint32⟩,
  ⟨"000000d5-0000-1000-8000-0026bb765291", .valveType, .uint8⟩,
  ⟨"000000d6-0000-1000-8000-0026bb765291", .isConfigured, .uint8⟩,
  ⟨"00000114-0000-1000-8000-0026bb765291", .supportedVideoStreamConfiguration, .tlv8⟩,
  ⟨"00000115-0000-1000-8000-0026bb765291", .supportedAudioStreamConfiguration, .tlv8⟩,
  ⟨"00000116-0000-1000-8000-0026bb765291", .supportedRtpConfiguration, .tlv8⟩,
  ⟨"00000117-0000-1000-8000-0026bb765291", .selectedRtpStreamConfiguration, .tlv8⟩,
  ⟨"00000118-0000-1000-8000-0026bb765291", .setupEndpoints, .tlv8⟩,
  ⟨"00000119-0000-1000-8000-0026bb765291", .volume, .uint8⟩,
  ⟨"0000011a-0000-1000-8000-0026bb765291", .mute, .bool⟩,
  ⟨"0000011b-0000-1000-8000-0026bb765291", .nightVision, .bool⟩,
  ⟨"0000011c-0000-1000-8000-0026bb765291", .opticalZoom, .float⟩,
  ⟨"0000011d-0000-1000-8000-0026bb765291", .digitalZoom, .float⟩,
  ⟨"0000011e-0000-1000-8000-0026bb765291", .imageRotation, .float⟩,
  ⟨"0000011f-0000-1000-8000-0026bb765291", .imageMirroring, .bool⟩,
  ⟨"00000120-0000-1000-8000-0026bb765291", .streamingStatus, .tlv8⟩,
  ⟨"00000702-0000-1000-8000-0026bb765291", .threadNodeCapabilities, .uint16⟩,
  ⟨"00000703-0000-1000-8000-0026bb765291", .threadStatus, .uint16⟩]

namespace CharacteristicType

def fromUuid (u : Uuid) : CharacteristicType :=
  match characteristicRows.find? (·.full == u.full) with
  | some row => .named row.name
  | none => .unknown u

def defaultFormat : CharacteristicType → Option CharFormat
  | named which => (characteristicRows.find? (·.name == which)).map (·.format)
  | unknown _ => none

theorem nodup_names : (characteristicRows.map (·.name)).Nodup := by decide +kernel

theorem fromUuid_eq_named {u : Uuid} {which : CharacteristicName} (h : fromUuid u = named which) :
    ∃ row ∈ characteristicRows, row.full = u.full ∧ row.name = which := by
  unfold fromUuid at h
  split at h
  · next row hfind =>
    have hfull : row.full = u.full := by simpa using List.find?_some hfind
    exact ⟨row, List.mem_of_find?_eq_some hfind, hfull, named.inj h⟩
  · cases h

theorem fromUuid_eq_unknown {u v : Uuid} (h : fromUuid u = unknown v) : u = v := by
  unfold fromUuid at h
  split at h
  · cases h
  · exact unknown.inj h

theorem fromUuid_injective : Function.Injective fromUuid := by
  intro u v h
  cases hv : fromUuid v with
  | unknown w => exact (fromUuid_eq_unknown (h.trans hv)).trans (fromUuid_eq_unknown hv).symm
  | named which =>
    obtain ⟨row, hmem, hfull, hname⟩ := fromUuid_eq_named (h.trans hv)
    obtain ⟨row', hmem', hfull', hname'⟩ := fromUuid_eq_named hv
    have hrow : row = row' :=
      List.inj_on_of_nodup_map nodup_names hmem hmem' (hname.trans hname'.symm)
    have heq : u.full = v.full := by rw [← hfull, ← hfull', hrow]
    cases u
    cases v
    exact congrArg Uuid.mk heq

theorem defaultFormat_ne_data (c : CharacteristicType) : c.defaultFormat ≠ some .data := by
  have hrows : ∀ row ∈ characteristicRows, row.format ≠ .data := by decide +kernel
  cases c with
  | unknown u => simp [defaultFormat]
  | named which =>
    rw [defaultFormat, ne_eq, Option.map_eq_some_iff]
    rintro ⟨row, hfind, hformat⟩
    exact hrows row (List.mem_of_find?_eq_some hfind) hformat

end CharacteristicType
end HapRust.Model
